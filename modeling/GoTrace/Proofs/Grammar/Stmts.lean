import GoTrace.Proofs.Grammar.Exprs

/-!
# What the rules for declarations and statements read

The header of a statement is read in parts, most of which may be missing: `ReadsHeader` says how
the parts of a loop header follow each other. Statements, declarations and clauses that stand on
lines of their own are read as `ReadsLines`.
-/

namespace GoTrace.Grammar

open GoTrace.Parser

variable {rules : Nested} (sound : rules.Sound) {ctx : ParseContext} {st₀ st st' : ParseState}

/-! ## Declarations -/

theorem readsOpt_importName? {name? : Option Ident} (h : importName?.Yields ctx st name? st') :
    ReadsOpt (name?.map Ident.layout) st st' := by
  obtain ⟨isIdent, _, hpeek, h⟩ := yields_bind.1 h
  obtain ⟨-, rfl⟩ := (yields_of_peeks peeks_nextIsIdent).1 hpeek
  split at h
  · obtain ⟨name, _, hname, h⟩ := yields_bind.1 h
    obtain ⟨rfl, rfl⟩ := yields_pure.1 h
    exact lays_expectIdent hname
  · obtain ⟨period?, _, hperiod, h⟩ := yields_bind.1 h
    replace hperiod := marks_of_takeOp? hperiod
    cases period? with
    | none =>
      obtain ⟨rfl, rfl⟩ := yields_pure.1 h
      exact hperiod
    | some period =>
      obtain ⟨rfl, rfl⟩ := yields_pure.1 h
      exact .ofLexeme hperiod rfl rfl rfl

theorem lays_importSpec : importSpec.Lays Spec.layout := by
  intro ctx st x st' h
  obtain ⟨name?, st₁, hname, h⟩ := yields_bind.1 h
  obtain ⟨isString, _, hpeek, h⟩ := yields_bind.1 h
  obtain ⟨-, rfl⟩ := (yields_of_peeks peeks_nextIsString).1 hpeek
  split at h
  · obtain ⟨path, _, hpath, h⟩ := yields_bind.1 h
    obtain ⟨rfl, rfl⟩ := yields_pure.1 h
    replace hname := readsOpt_importName? hname
    replace hpath := lays_expectLiteral hpath
    have hopens : Opens (((name?.map Ident.layout).map Layout.start).getD path.layout.start) st := by
      cases name? with
      | none =>
        obtain rfl := hname
        exact hpath.1
      | some name => exact hname.1
    rw [Spec.layout]
    exact .intro hopens (.itemOpt hname (.check (.item hpath .done)))
  · exact absurd h not_yields_unexpected

include sound in
theorem lays_typeSpec : (typeSpec rules).Lays Spec.layout := by
  intro ctx st x st' h
  obtain ⟨name, _, hname, h⟩ := yields_bind.1 h
  obtain ⟨assign?, _, hassign, h⟩ := yields_bind.1 h
  obtain ⟨type, _, htype, h⟩ := yields_bind.1 h
  obtain ⟨rfl, rfl⟩ := yields_pure.1 h
  replace hname := lays_expectIdent hname
  replace hassign := marks_of_takeOp? hassign
  rw [Spec.layout]
  refine .intro hname.1 (.item hname (.check (.tokenOpt hassign rfl rfl ?_)))
  exact .item (sound.type htype) .done

include sound in
/-- The values of constants or variables are read behind their names and type. -/
private theorem reads_values {names : List Ident} {nameCommas : List Offset} {type? : Option Expr}
    {x : Spec} {st₁ : ParseState}
    (h : Yields (do
      match ← takeOp? .assign with
      | some assign =>
        let (values, valueCommas) ← exprList rules
        return .values names nameCommas type? (some assign) values valueCommas
      | none => return .values names nameCommas type? none [] []) ctx st x st')
    (hnames : ReadsRun (names.map Ident.layout) nameCommas st₀ st₁)
    (htype : ReadsOpt (Expr.layout? type?) st₁ st) : x.layout.Reads st₀ st' := by
  obtain ⟨assign?, _, hassign, h⟩ := yields_bind.1 h
  replace hassign := marks_of_takeOp? hassign
  cases assign? with
  | none =>
    obtain ⟨rfl, rfl⟩ := yields_pure.1 h
    obtain rfl := hassign
    rw [Spec.layout]
    refine .intro hnames.opens (hnames.list (.check (.itemOpt htype ?_)))
    exact .silent rfl (.check (.listDone .done))
  | some assign =>
    obtain ⟨⟨values, valueCommas⟩, _, hvalues, h⟩ := yields_bind.1 h
    obtain ⟨rfl, rfl⟩ := yields_pure.1 h
    replace hvalues := readsRun_exprList sound hvalues
    rw [Spec.layout, Expr.layouts_eq_map]
    refine .intro hnames.opens (hnames.list (.check (.itemOpt htype ?_)))
    refine .token hassign rfl rfl (.check (hvalues.list ?_))
    rw [stopOfLast_eq hvalues.ne_nil _ _]
    exact .done

include sound in
theorem lays_valueSpec : (valueSpec rules).Lays Spec.layout := by
  intro ctx st x st' h
  obtain ⟨⟨names, nameCommas⟩, st₁, hnames, h⟩ := yields_bind.1 h
  replace hnames := readsRun_of_commaSeparated lays_expectIdent hnames
  have h := (yields_peek peeks_peekKind?).1 h
  dsimp only at h
  split at h
  · obtain ⟨type?, _, htype, h⟩ := yields_bind.1 h
    obtain ⟨rfl, rfl⟩ := yields_pure.1 htype
    exact reads_values sound h hnames rfl
  · obtain ⟨type?, _, htype, h⟩ := yields_bind.1 h
    obtain ⟨type, htype', rfl⟩ := yields_map.1 htype
    exact reads_values sound h hnames (sound.type htype')

include sound in
theorem lays_spec {keyword : Keyword} : (spec rules keyword).Lays Spec.layout := by
  intro ctx st x st' h
  unfold spec at h
  split at h
  · exact lays_importSpec h
  · exact lays_typeSpec sound h
  · exact lays_valueSpec sound h

include sound in
theorem lays_genDecl {keyword : Keyword} : (genDecl rules keyword).Lays GenDecl.layout := by
  intro ctx st x st' h
  obtain ⟨place, _, hplace, h⟩ := yields_bind.1 h
  obtain ⟨lparen?, _, hlparen, h⟩ := yields_bind.1 h
  replace hplace := marks_of_expectKeyword hplace
  replace hlparen := marks_of_takeOp? hlparen
  cases lparen? with
  | none =>
    obtain rfl := hlparen
    obtain ⟨entry, _, hentry, h⟩ := yields_bind.1 h
    obtain ⟨rfl, rfl⟩ := yields_pure.1 h
    replace hentry := lays_spec sound hentry
    rw [GenDecl.layout]
    refine .intro (hplace.opens rfl) (.lexeme hplace rfl rfl (.check (.silent rfl (.check ?_))))
    exact .listItem (.item hentry (.listDone (.silent rfl .done)))
  | some lparen =>
    obtain ⟨specs, _, hspecs, h⟩ := yields_bind.1 h
    obtain ⟨rparen, _, hrparen, h⟩ := yields_bind.1 h
    obtain ⟨rfl, rfl⟩ := yields_pure.1 h
    replace hspecs := readsLines_of_many (peeks_nextIsOp .rparen)
      (fun _ => readsLine (lays_spec sound)) hspecs
    replace hrparen := marks_of_expectOp hrparen
    rw [GenDecl.layout, Spec.layouts_eq_map]
    refine .intro (hplace.opens rfl) (.lexeme hplace rfl rfl (.check ?_))
    exact .token hlparen rfl rfl (.check (hspecs.list (.token hrparen rfl rfl .done)))

/-! ## Simple statements -/

/-- The only one of some expressions is found without reading on. -/
theorem eq_of_single {exprs : List Expr} {expected : Expectation} {x : Expr}
    (h : (single exprs expected).Yields ctx st x st') : exprs = [x] ∧ st = st' := by
  unfold single at h
  split at h
  · obtain ⟨rfl, rfl⟩ := yields_pure.1 h
    exact ⟨rfl, rfl⟩
  · exact absurd h not_yields_unexpected

theorem reads_exprStmt {left : List Expr} {commas : List Offset} {x : Stmt}
    (h : (exprStmt left).Yields ctx st x st')
    (hleft : ReadsRun (left.map Expr.layout) commas st₀ st) : x.layout.Reads st₀ st' := by
  obtain ⟨expr, _, hexpr, h⟩ := yields_bind.1 h
  obtain ⟨rfl, rfl⟩ := yields_pure.1 h
  obtain ⟨rfl, rfl⟩ := eq_of_single hexpr
  rw [Stmt.layout]
  exact Layout.Reads.wrap_iff.2 hleft.lone

include sound in
theorem lays_labeledBody : (labeledBody rules).Lays Stmt.layout := by
  intro ctx st x st' h
  have h := (yields_peek (peeks_nextIsOp _)).1 h
  split at h
  · rename_i hkind
    have h := (yields_peek peeks_peekSpan).1 h
    obtain ⟨rfl, rfl⟩ := yields_pure.1 h
    -- the empty statement stands in front of the brace and has no token
    rw [beq_iff_eq, ParseState.nextKind?, Option.map_eq_some_iff] at hkind
    obtain ⟨t, ht, hkind⟩ := hkind
    obtain ⟨ts, hts⟩ := List.head?_eq_some_iff.1 ht
    rw [ht, Option.map_some, Option.getD_some, Stmt.layout]
    refine .intro ⟨t, ts, hts, rfl, by rw [hkind]; rfl⟩ (.silent rfl ?_)
    have hstop : (Span.ofLength t.span.start 0).stop = t.span.start := Offset.advance_zero _
    rw [if_pos rfl, hstop]
    exact .done
  · exact sound.stmt h

include sound in
theorem reads_assignment {left : List Expr} {leftCommas : List Offset} {place : Offset}
    {op : Operator} {x : Stmt} {st₁ : ParseState}
    (h : (assignment rules left leftCommas place op).Yields ctx st x st')
    (hleft : ReadsRun (left.map Expr.layout) leftCommas st₀ st₁)
    (hop : Marks (.operator op) place st₁ st) (hassign : op.isAssignment) :
    x.layout.Reads st₀ st' := by
  obtain ⟨⟨right, rightCommas⟩, _, hright, h⟩ := yields_bind.1 h
  obtain ⟨rfl, rfl⟩ := yields_pure.1 h
  replace hright := readsRun_exprList sound hright
  have hplain : (TokenKind.operator op).isPlain := bne_iff_ne.2 (by rintro rfl; cases hassign)
  rw [Stmt.layout, Expr.layouts_eq_map, Expr.layouts_eq_map]
  refine .intro hleft.opens (hleft.list (.check (.lexeme hop hplain rfl (.check ?_))))
  exact hright.list .done

theorem reads_incDec {left : List Expr} {commas : List Offset} {op : Operator} {x : Stmt}
    (h : (incDec left op).Yields ctx st x st')
    (hleft : ReadsRun (left.map Expr.layout) commas st₀ st)
    (hkind : st.nextKind? = some (.operator op)) (hop : op = .inc ∨ op = .dec) :
    x.layout.Reads st₀ st' := by
  obtain ⟨expr, st₁, hexpr, h⟩ := yields_bind.1 h
  obtain ⟨place, _, hplace, h⟩ := yields_bind.1 h
  obtain ⟨rfl, rfl⟩ := yields_pure.1 h
  obtain ⟨rfl, rfl⟩ := eq_of_single hexpr
  replace hplace := marks_of_takePlace hplace hkind
  have hleft := hleft.lone
  rw [Stmt.layout]
  rcases hop with rfl | rfl <;>
  exact .intro hleft.1 (.item hleft (.check (.lexeme hplace rfl rfl .done)))

include sound in
theorem reads_send {left : List Expr} {commas : List Offset} {x : Stmt}
    (h : (send rules left).Yields ctx st x st')
    (hleft : ReadsRun (left.map Expr.layout) commas st₀ st)
    (hkind : st.nextKind? = some (.operator .arrow)) : x.layout.Reads st₀ st' := by
  obtain ⟨channel, st₁, hchannel, h⟩ := yields_bind.1 h
  obtain ⟨arrow, _, harrow, h⟩ := yields_bind.1 h
  obtain ⟨value, _, hvalue, h⟩ := yields_bind.1 h
  obtain ⟨rfl, rfl⟩ := yields_pure.1 h
  obtain ⟨rfl, rfl⟩ := eq_of_single hchannel
  replace harrow := marks_of_takePlace harrow hkind
  have hleft := hleft.lone
  rw [Stmt.layout]
  refine .intro hleft.1 (.item hleft (.check (.token harrow rfl rfl (.check ?_))))
  exact .item (sound.expr hvalue) .done

include sound in
theorem reads_labeled {labels : Bool} {left : List Expr} {commas : List Offset} {x : Stmt}
    (h : (labeled rules labels left).Yields ctx st x st')
    (hleft : ReadsRun (left.map Expr.layout) commas st₀ st)
    (hkind : st.nextKind? = some (.operator .colon)) : x.layout.Reads st₀ st' := by
  unfold labeled at h
  split at h
  · obtain ⟨colon, _, hcolon, h⟩ := yields_bind.1 h
    obtain ⟨body, _, hbody, h⟩ := yields_bind.1 h
    obtain ⟨rfl, rfl⟩ := yields_pure.1 h
    replace hcolon := marks_of_takePlace hcolon hkind
    have hlabel := hleft.lone
    rw [Stmt.layout]
    refine .intro hlabel.1 (.item hlabel (.check (.token hcolon rfl rfl (.check ?_))))
    exact .item (lays_labeledBody sound hbody) .done
  · exact reads_exprStmt h hleft

include sound in
/-- A simple statement is read from its first expressions on. -/
theorem reads_simpleRest {labels : Bool} {left : List Expr} {leftCommas : List Offset} {x : Stmt}
    (h : (simpleRest rules labels left leftCommas).Yields ctx st x st')
    (hleft : ReadsRun (left.map Expr.layout) leftCommas st₀ st) : x.layout.Reads st₀ st' := by
  obtain ⟨op?, _, hpeek, h⟩ := yields_bind.1 h
  obtain ⟨rfl, hop⟩ := nextKind?_of_peekOp? hpeek
  cases op? with
  | none => exact reads_exprStmt h hleft
  | some op =>
    dsimp only at h
    split at h
    · rename_i hassign
      obtain ⟨place, _, hplace, h⟩ := yields_bind.1 h
      exact reads_assignment sound h hleft (marks_of_takePlace hplace (hop rfl)) hassign
    · split at h
      · exact reads_incDec h hleft (hop rfl) (.inl rfl)
      · exact reads_incDec h hleft (hop rfl) (.inr rfl)
      · exact reads_labeled sound h hleft (hop rfl)
      · exact reads_send sound h hleft (hop rfl)
      · exact reads_exprStmt h hleft

include sound in
theorem lays_simpleStmt {labels : Bool} : (simpleStmt rules labels).Lays Stmt.layout := by
  intro ctx st x st' h
  obtain ⟨⟨left, leftCommas⟩, _, hleft, h⟩ := yields_bind.1 h
  exact reads_simpleRest sound h (readsRun_exprList sound hleft)

/-! ## Conditions -/

/-- The condition that a statement stands for is found without reading on. -/
theorem eq_of_asCondition {stmt : Stmt} {x : Expr} (h : (asCondition stmt).Yields ctx st x st') :
    stmt = .expr x ∧ st = st' := by
  unfold asCondition at h
  split at h
  · obtain ⟨rfl, rfl⟩ := yields_pure.1 h
    exact ⟨rfl, rfl⟩
  · exact absurd h not_yields_failAt

/-- An expression is read with the statement that is nothing else. -/
theorem reads_of_exprStmt {x : Expr} (h : (Stmt.expr x).layout.Reads st st') :
    x.layout.Reads st st' := by
  rw [Stmt.layout] at h
  exact Layout.Reads.wrap_iff.1 h

include sound in
theorem reads_ifHeader {init? : Option Stmt} {semicolon? : Option Offset} {cond : Expr}
    (h : (ifHeader rules).Yields ctx st (init?, semicolon?, cond) st') :
    ∃ st₁ st₂, ReadsOpt (Stmt.layout? init?) st st₁ ∧
      MarksOpt (.semicolon false) semicolon? st₁ st₂ ∧ cond.layout.Reads st₂ st' := by
  obtain ⟨stmt, st₁, hstmt, h⟩ := yields_bind.1 h
  replace hstmt := lays_simpleStmt sound hstmt
  have h := (yields_peek peeks_nextIsWrittenSemicolon).1 h
  split at h
  · rename_i hkind
    obtain ⟨semicolon, st₂, hsemicolon, h⟩ := yields_bind.1 h
    obtain ⟨cond, _, hcond, h⟩ := yields_bind.1 h
    obtain ⟨heq, rfl⟩ := yields_pure.1 h
    cases heq
    exact ⟨st₁, st₂, hstmt, marks_of_takePlace hsemicolon (beq_iff_eq.1 hkind), sound.expr hcond⟩
  · obtain ⟨cond, _, hcond, h⟩ := yields_bind.1 h
    obtain ⟨heq, rfl⟩ := yields_pure.1 h
    cases heq
    obtain ⟨rfl, rfl⟩ := eq_of_asCondition hcond
    exact ⟨st, st, rfl, rfl, reads_of_exprStmt hstmt⟩

include sound in
theorem lays_elseBranch : (elseBranch rules).Lays Stmt.layout := by
  intro ctx st x st' h
  have h := (yields_peek (peeks_nextIsKeyword _)).1 h
  split at h
  · exact sound.ifStmt h
  · have h := (yields_peek (peeks_nextIsOp _)).1 h
    split at h
    · obtain ⟨block, _, hblock, h⟩ := yields_bind.1 h
      obtain ⟨rfl, rfl⟩ := yields_pure.1 h
      exact sound.block hblock
    · exact absurd h not_yields_unexpected

include sound in
theorem lays_ifStmt : (ifStmt rules).Lays Stmt.layout := by
  intro ctx st x st' h
  obtain ⟨place, _, hplace, h⟩ := yields_bind.1 h
  obtain ⟨⟨init?, semicolon?, cond⟩, _, hheader, h⟩ := yields_bind.1 h
  obtain ⟨body, _, hbody, h⟩ := yields_bind.1 h
  replace hplace := marks_of_expectKeyword hplace
  obtain ⟨st₁, st₂, hinit, hsemicolon, hcond⟩ :=
    reads_ifHeader sound (yields_withLiterals.1 hheader)
  replace hbody := sound.block hbody
  have h := (yields_peek (peeks_nextIsKeyword _)).1 h
  split at h
  · rename_i hkind
    obtain ⟨elsePlace, _, helse, h⟩ := yields_bind.1 h
    obtain ⟨branch, _, hbranch, h⟩ := yields_bind.1 h
    obtain ⟨rfl, rfl⟩ := yields_pure.1 h
    replace helse := marks_of_takePlace helse (beq_iff_eq.1 hkind)
    replace hbranch := lays_elseBranch sound hbranch
    rw [Stmt.layout]
    refine .intro (hplace.opens rfl) (.token hplace rfl rfl (.check ?_))
    refine .itemOpt hinit (.check (.tokenOpt hsemicolon rfl rfl (.item hcond (.check ?_))))
    exact .item hbody (.token helse rfl rfl (.check (.item hbranch .done)))
  · obtain ⟨rfl, rfl⟩ := yields_pure.1 h
    rw [Stmt.layout]
    refine .intro (hplace.opens rfl) (.token hplace rfl rfl (.check ?_))
    refine .itemOpt hinit (.check (.tokenOpt hsemicolon rfl rfl (.item hcond (.check ?_))))
    exact .item hbody (.silent rfl (.check (.silent rfl .done)))

/-! ## Loops -/

/-- The header of a loop is read. -/
inductive ReadsHeader : LoopHeader → ParseState → ParseState → Prop
  /-- Up to three parts with semicolons between them. -/
  | forClause {init? post? : Option Stmt} {cond? : Option Expr}
      {initSemicolon? condSemicolon? : Option Offset} {st st₁ st₂ st₃ st₄ st' : ParseState}
      (hinit : ReadsOpt (Stmt.layout? init?) st st₁)
      (hfirst : MarksOpt (.semicolon false) initSemicolon? st₁ st₂)
      (hcond : ReadsOpt (Expr.layout? cond?) st₂ st₃)
      (hsecond : MarksOpt (.semicolon false) condSemicolon? st₃ st₄)
      (hpost : ReadsOpt (Stmt.layout? post?) st₄ st') :
      ReadsHeader (.forClause init? initSemicolon? cond? condSemicolon? post?) st st'
  /-- A range without variables. -/
  | range {range : Offset} {operand : Expr} {st st₁ st' : ParseState}
      (hrange : Marks (.keyword .rangeKw) range st st₁) (hoperand : operand.layout.Reads st₁ st') :
      ReadsHeader (.rangeClause none none none none none range operand) st st'
  /-- A range with one or two variables. -/
  | rangeOver {left : List Expr} {leftCommas : List Offset} {opPlace range : Offset} {op : Operator}
      {operand : Expr} {st st₁ st₂ st₃ st' : ParseState}
      (hleft : ReadsRun (left.map Expr.layout) leftCommas st st₁) (hlength : left.length ≤ 2)
      (hop : Marks (.operator op) opPlace st₁ st₂) (hplain : (TokenKind.operator op).isPlain)
      (hrange : Marks (.keyword .rangeKw) range st₂ st₃) (hoperand : operand.layout.Reads st₃ st') :
      ReadsHeader
        (.rangeClause left.head? leftCommas.head? left[1]? (some opPlace) (some op) range operand)
        st st'

include sound in
theorem reads_forClauses {init? : Option Stmt} {header : LoopHeader}
    (h : (forClauses rules init?).Yields ctx st header st')
    (hinit : ReadsOpt (Stmt.layout? init?) st₀ st) : ReadsHeader header st₀ st' := by
  obtain ⟨initSemicolon, _, hfirst, h⟩ := yields_bind.1 h
  have h := (yields_peek peeks_nextIsWrittenSemicolon).1 h
  obtain ⟨cond?, _, hcond, h⟩ := yields_ite_bind.1 h
  obtain ⟨condSemicolon, _, hsecond, h⟩ := yields_bind.1 h
  have h := (yields_peek (peeks_nextIsOp _)).1 h
  obtain ⟨post?, _, hpost, h⟩ := yields_ite_bind.1 h
  obtain ⟨rfl, rfl⟩ := yields_pure.1 h
  replace hfirst := marks_of_expectWrittenSemicolon hfirst
  replace hsecond := marks_of_expectWrittenSemicolon hsecond
  replace hcond := readsOpt_of_ite_none sound.expr hcond
  replace hpost := readsOpt_of_ite_none (lays_simpleStmt sound) hpost
  rw [← Expr.layout?_eq_map] at hcond
  rw [← Stmt.layout?_eq_map] at hpost
  exact .forClause hinit hfirst hcond hsecond hpost

include sound in
theorem reads_forHeaderFrom {stmt : Stmt} {header : LoopHeader}
    (h : (forHeaderFrom rules stmt).Yields ctx st header st')
    (hstmt : stmt.layout.Reads st₀ st) : ReadsHeader header st₀ st' := by
  have h := (yields_peek peeks_nextIsWrittenSemicolon).1 h
  split at h
  · exact reads_forClauses sound h hstmt
  · obtain ⟨cond, _, hcond, h⟩ := yields_bind.1 h
    obtain ⟨rfl, rfl⟩ := yields_pure.1 h
    obtain ⟨rfl, rfl⟩ := eq_of_asCondition hcond
    exact .forClause rfl rfl (reads_of_exprStmt hstmt) rfl rfl

include sound in
theorem reads_rangeClause {left : List Expr} {leftCommas : List Offset} {opPlace : Offset}
    {op : Operator} {header : LoopHeader} {st₁ : ParseState}
    (h : (rangeClause rules left leftCommas opPlace op).Yields ctx st header st')
    (hleft : ReadsRun (left.map Expr.layout) leftCommas st₀ st₁)
    (hop : Marks (.operator op) opPlace st₁ st) (hallows : allowsRange left op) :
    ReadsHeader header st₀ st' := by
  obtain ⟨range, _, hrange, h⟩ := yields_bind.1 h
  obtain ⟨operand, _, hoperand, h⟩ := yields_bind.1 h
  obtain ⟨rfl, rfl⟩ := yields_pure.1 h
  rw [allowsRange, Bool.and_eq_true, Bool.or_eq_true, beq_iff_eq, beq_iff_eq,
    decide_eq_true_eq] at hallows
  have hplain : (TokenKind.operator op).isPlain := by rcases hallows.1 with rfl | rfl <;> rfl
  exact .rangeOver hleft hallows.2 hop hplain (marks_of_expectKeyword hrange)
    (sound.expr hoperand)

include sound in
theorem reads_exprHeader {header : LoopHeader} (h : (exprHeader rules).Yields ctx st header st') :
    ReadsHeader header st st' := by
  obtain ⟨⟨left, leftCommas⟩, _, hleft, h⟩ := yields_bind.1 h
  replace hleft := readsRun_exprList sound hleft
  obtain ⟨op?, _, hpeek, h⟩ := yields_bind.1 h
  obtain ⟨rfl, hop⟩ := nextKind?_of_peekOp? hpeek
  cases op? with
  | none =>
    obtain ⟨stmt, _, hstmt, h⟩ := yields_bind.1 h
    exact reads_forHeaderFrom sound h (reads_exprStmt hstmt hleft)
  | some op =>
    dsimp only at h
    split at h
    · rename_i hassign
      obtain ⟨place, _, hplace, h⟩ := yields_bind.1 h
      replace hplace := marks_of_takePlace hplace (hop rfl)
      have h := (yields_peek (peeks_nextIsKeyword _)).1 h
      split at h
      · rename_i hallows
        exact reads_rangeClause sound h hleft hplace (Bool.and_eq_true_iff.1 hallows).1
      · obtain ⟨stmt, _, hstmt, h⟩ := yields_bind.1 h
        exact reads_forHeaderFrom sound h (reads_assignment sound hstmt hleft hplace hassign)
    · obtain ⟨stmt, _, hstmt, h⟩ := yields_bind.1 h
      exact reads_forHeaderFrom sound h (reads_simpleRest sound hstmt hleft)

include sound in
theorem reads_loopHeader {header : LoopHeader} (h : (loopHeader rules).Yields ctx st header st') :
    ReadsHeader header st st' := by
  have h := (yields_peek (peeks_nextIsOp _)).1 h
  split at h
  · obtain ⟨rfl, rfl⟩ := yields_pure.1 h
    exact .forClause rfl rfl rfl rfl rfl
  have h := (yields_peek peeks_nextIsWrittenSemicolon).1 h
  split at h
  · exact reads_forClauses sound h rfl
  have h := (yields_peek (peeks_nextIsKeyword _)).1 h
  split at h
  · rename_i hkind
    obtain ⟨range, _, hrange, h⟩ := yields_bind.1 h
    obtain ⟨operand, _, hoperand, h⟩ := yields_bind.1 h
    obtain ⟨rfl, rfl⟩ := yields_pure.1 h
    exact .range (marks_of_takePlace hrange (beq_iff_eq.1 hkind)) (sound.expr hoperand)
  · exact reads_exprHeader sound h

/-- A loop is read if its keyword, its header and its body are. -/
theorem reads_loop {place : Offset} {body : Block} {header : LoopHeader} {st₁ st₂ : ParseState}
    (hplace : Marks (.keyword .forKw) place st st₁) (hheader : ReadsHeader header st₁ st₂)
    (hbody : body.layout.Reads st₂ st') : (header.toStmt place body).layout.Reads st st' := by
  cases hheader with
  | forClause hinit hfirst hcond hsecond hpost =>
    rw [LoopHeader.toStmt, Stmt.layout]
    refine .intro (hplace.opens rfl) (.token hplace rfl rfl (.check (.itemOpt hinit (.check ?_))))
    refine .tokenOpt hfirst rfl rfl (.itemOpt hcond (.check (.tokenOpt hsecond rfl rfl ?_)))
    exact .itemOpt hpost (.check (.item hbody .done))
  | range hrange hoperand =>
    rw [LoopHeader.toStmt, Stmt.layout]
    refine .intro (hplace.opens rfl) (.token hplace rfl rfl (.check (.silent rfl (.check ?_))))
    refine .silent rfl (.silent rfl (.check (.silent rfl (.token hrange rfl rfl (.check ?_)))))
    exact .item hoperand (.check (.item hbody .done))
  | @rangeOver left leftCommas _ _ _ _ _ _ _ _ _ hleft hlength hop hplain hrange hoperand =>
    rw [LoopHeader.toStmt, Stmt.layout]
    refine .intro (hplace.opens rfl) (.token hplace rfl rfl (.check ?_))
    -- one variable, or two with a comma between them
    rcases left with _ | ⟨key, _ | ⟨value, left⟩⟩
    · cases hleft
    · cases hleft with
      | one hkey =>
        refine .item hkey (.check (.silent rfl (.silent rfl (.check (.lexeme hop hplain rfl ?_)))))
        exact .token hrange rfl rfl (.check (.item hoperand (.check (.item hbody .done))))
      | more hkey hcomma hrest => cases hrest
    · obtain rfl : left = [] := by simpa using hlength
      cases hleft with
      | more hkey hcomma hrest =>
        cases hrest with
        | one hvalue =>
          refine .item hkey (.check (.token hcomma rfl rfl (.item hvalue (.check ?_))))
          refine .lexeme hop hplain rfl (.token hrange rfl rfl (.check ?_))
          exact .item hoperand (.check (.item hbody .done))
        | more hvalue hcomma hrest => cases hrest

include sound in
theorem lays_forStmt : (forStmt rules).Lays Stmt.layout := by
  intro ctx st x st' h
  obtain ⟨place, _, hplace, h⟩ := yields_bind.1 h
  obtain ⟨header, _, hheader, h⟩ := yields_bind.1 h
  obtain ⟨body, _, hbody, h⟩ := yields_bind.1 h
  obtain ⟨rfl, rfl⟩ := yields_pure.1 h
  exact reads_loop (marks_of_expectKeyword hplace)
    (reads_loopHeader sound (yields_withLiterals.1 hheader)) (sound.block hbody)

/-! ## Switches and selections -/

/-- Clauses between braces are read if each clause is where its keyword is next. -/
theorem lays_clauseBlock {clause : Parser Stmt}
    (hclause : ∀ {ctx st x st'},
      st.nextKind? = some (.keyword .caseKw) ∨ st.nextKind? = some (.keyword .defaultKw) →
        clause.Yields ctx st x st' → x.layout.Reads st st') :
    (clauseBlock clause).Lays Block.layout := by
  intro ctx st x st' h
  obtain ⟨lbrace, _, hlbrace, h⟩ := yields_bind.1 h
  obtain ⟨clauses, _, hclauses, h⟩ := yields_bind.1 h
  obtain ⟨rbrace, _, hrbrace, h⟩ := yields_bind.1 h
  obtain ⟨rfl, rfl⟩ := yields_pure.1 h
  replace hlbrace := marks_of_expectOp hlbrace
  replace hrbrace := marks_of_expectOp hrbrace
  have hpeeks : Peeks (do return !((← nextIsKeyword .caseKw) || (← nextIsKeyword .defaultKw)))
      fun st => !(st.nextKind? == some (.keyword .caseKw) ||
        st.nextKind? == some (.keyword .defaultKw)) := fun _ _ => rfl
  have hitem : ∀ {ctx st x st'}, (!(st.nextKind? == some (.keyword .caseKw) ||
      st.nextKind? == some (.keyword .defaultKw))) = false → clause.Yields ctx st x st' →
        ∃ st₁, (Stmt.layout x).Reads st st₁ ∧ Skips st₁ st' := by
    intro ctx st x st' hkind h
    rw [Bool.not_eq_false', Bool.or_eq_true, beq_iff_eq, beq_iff_eq] at hkind
    exact ⟨st', hclause hkind h, .inl rfl⟩
  have hlines := readsLines_of_many hpeeks hitem hclauses
  rw [Block.layout, Stmt.layouts_eq_map]
  refine .intro (hlbrace.opens rfl) (.token hlbrace rfl rfl (.check (hlines.list ?_)))
  exact .token hrbrace rfl rfl .done

include sound in
theorem reads_caseClause {x : Stmt} (h : (caseClause rules).Yields ctx st x st')
    (hkind : st.nextKind? = some (.keyword .caseKw) ∨ st.nextKind? = some (.keyword .defaultKw)) :
    x.layout.Reads st st' := by
  have h := (yields_peek (peeks_nextIsKeyword _)).1 h
  split at h
  · rename_i hdefault
    obtain ⟨place, _, hplace, h⟩ := yields_bind.1 h
    obtain ⟨colon, _, hcolon, h⟩ := yields_bind.1 h
    obtain ⟨body, _, hbody, h⟩ := yields_bind.1 h
    obtain ⟨rfl, rfl⟩ := yields_pure.1 h
    replace hplace := marks_of_takePlace hplace (beq_iff_eq.1 hdefault)
    replace hcolon := marks_of_expectOp hcolon
    rw [Stmt.layout, Stmt.layouts_eq_map]
    refine .intro (hplace.opens rfl) (.lexeme hplace rfl rfl (.check (.listDone (.check ?_))))
    exact .token hcolon rfl rfl (.check ((sound.stmts hbody).list .done))
  · rename_i hdefault
    obtain ⟨place, _, hplace, h⟩ := yields_bind.1 h
    obtain ⟨⟨exprs, commas⟩, _, hexprs, h⟩ := yields_bind.1 h
    obtain ⟨colon, _, hcolon, h⟩ := yields_bind.1 h
    obtain ⟨body, _, hbody, h⟩ := yields_bind.1 h
    obtain ⟨rfl, rfl⟩ := yields_pure.1 h
    replace hplace := marks_of_takePlace hplace
      (hkind.resolve_right fun hkind => hdefault (beq_iff_eq.2 hkind))
    replace hexprs := readsRun_exprList sound hexprs
    replace hcolon := marks_of_expectOp hcolon
    rw [Stmt.layout, Stmt.layouts_eq_map, Expr.layouts_eq_map]
    refine .intro (hplace.opens rfl) (.lexeme hplace rfl rfl (.check (hexprs.list (.check ?_))))
    exact .token hcolon rfl rfl (.check ((sound.stmts hbody).list .done))

include sound in
theorem reads_commClause {x : Stmt} (h : (commClause rules).Yields ctx st x st')
    (hkind : st.nextKind? = some (.keyword .caseKw) ∨ st.nextKind? = some (.keyword .defaultKw)) :
    x.layout.Reads st st' := by
  have h := (yields_peek (peeks_nextIsKeyword _)).1 h
  split at h
  · rename_i hdefault
    obtain ⟨place, _, hplace, h⟩ := yields_bind.1 h
    obtain ⟨colon, _, hcolon, h⟩ := yields_bind.1 h
    obtain ⟨body, _, hbody, h⟩ := yields_bind.1 h
    obtain ⟨rfl, rfl⟩ := yields_pure.1 h
    replace hplace := marks_of_takePlace hplace (beq_iff_eq.1 hdefault)
    replace hcolon := marks_of_expectOp hcolon
    rw [Stmt.layout, Stmt.layouts_eq_map]
    refine .intro (hplace.opens rfl) (.lexeme hplace rfl rfl (.check (.silent rfl (.check ?_))))
    exact .token hcolon rfl rfl (.check ((sound.stmts hbody).list .done))
  · rename_i hdefault
    obtain ⟨place, _, hplace, h⟩ := yields_bind.1 h
    obtain ⟨comm, _, hcomm, h⟩ := yields_bind.1 h
    obtain ⟨colon, _, hcolon, h⟩ := yields_bind.1 h
    obtain ⟨body, _, hbody, h⟩ := yields_bind.1 h
    obtain ⟨rfl, rfl⟩ := yields_pure.1 h
    replace hplace := marks_of_takePlace hplace
      (hkind.resolve_right fun hkind => hdefault (beq_iff_eq.2 hkind))
    replace hcomm := lays_simpleStmt sound hcomm
    replace hcolon := marks_of_expectOp hcolon
    rw [Stmt.layout, Stmt.layouts_eq_map]
    refine .intro (hplace.opens rfl) (.lexeme hplace rfl rfl (.check (.item hcomm (.check ?_))))
    exact .token hcolon rfl rfl (.check ((sound.stmts hbody).list .done))

include sound in
theorem reads_switchHeader {init? tag? : Option Stmt} {semicolon? : Option Offset}
    (h : (switchHeader rules).Yields ctx st (init?, semicolon?, tag?) st') :
    ∃ st₁ st₂, ReadsOpt (Stmt.layout? init?) st st₁ ∧
      MarksOpt (.semicolon false) semicolon? st₁ st₂ ∧ ReadsOpt (Stmt.layout? tag?) st₂ st' := by
  have h := (yields_peek (peeks_nextIsOp _)).1 h
  split at h
  · obtain ⟨heq, rfl⟩ := yields_pure.1 h
    cases heq
    exact ⟨st, st, rfl, rfl, rfl⟩
  · obtain ⟨stmt, st₁, hstmt, h⟩ := yields_bind.1 h
    replace hstmt := lays_simpleStmt sound hstmt
    have h := (yields_peek peeks_nextIsWrittenSemicolon).1 h
    split at h
    · rename_i hkind
      obtain ⟨semicolon, st₂, hsemicolon, h⟩ := yields_bind.1 h
      replace hsemicolon := marks_of_takePlace hsemicolon (beq_iff_eq.1 hkind)
      have h := (yields_peek (peeks_nextIsOp _)).1 h
      obtain ⟨tag?, _, htag, h⟩ := yields_ite_bind.1 h
      obtain ⟨heq, rfl⟩ := yields_pure.1 h
      cases heq
      replace htag := readsOpt_of_ite_none (lays_simpleStmt sound) htag
      rw [← Stmt.layout?_eq_map] at htag
      exact ⟨st₁, st₂, hstmt, hsemicolon, htag⟩
    · obtain ⟨heq, rfl⟩ := yields_pure.1 h
      cases heq
      exact ⟨st, st, rfl, rfl, hstmt⟩

include sound in
theorem lays_switchStmt : (switchStmt rules).Lays Stmt.layout := by
  intro ctx st x st' h
  obtain ⟨place, _, hplace, h⟩ := yields_bind.1 h
  obtain ⟨⟨init?, semicolon?, tag?⟩, _, hheader, h⟩ := yields_bind.1 h
  obtain ⟨body, _, hbody, h⟩ := yields_bind.1 h
  replace hplace := marks_of_expectKeyword hplace
  obtain ⟨st₁, st₂, hinit, hsemicolon, htag⟩ :=
    reads_switchHeader sound (yields_withLiterals.1 hheader)
  replace hbody := lays_clauseBlock (fun hkind h => reads_caseClause sound h hkind) hbody
  cases tag? with
  | none =>
    obtain ⟨rfl, rfl⟩ := yields_pure.1 h
    obtain rfl := htag
    rw [Stmt.layout]
    refine .intro (hplace.opens rfl) (.token hplace rfl rfl (.check (.itemOpt hinit (.check ?_))))
    exact .tokenOpt hsemicolon rfl rfl (.silent rfl (.check (.item hbody .done)))
  | some tag =>
    dsimp only at h
    split at h
    · obtain ⟨rfl, rfl⟩ := yields_pure.1 h
      rw [Stmt.layout]
      refine .intro (hplace.opens rfl) (.token hplace rfl rfl (.check (.itemOpt hinit (.check ?_))))
      exact .tokenOpt hsemicolon rfl rfl (.item htag (.check (.item hbody .done)))
    · obtain ⟨x, _, hx, h⟩ := yields_bind.1 h
      obtain ⟨rfl, rfl⟩ := yields_pure.1 h
      obtain ⟨rfl, rfl⟩ := eq_of_asCondition hx
      replace htag := reads_of_exprStmt htag
      rw [Stmt.layout]
      refine .intro (hplace.opens rfl) (.token hplace rfl rfl (.check (.itemOpt hinit (.check ?_))))
      exact .tokenOpt hsemicolon rfl rfl (.item htag (.check (.item hbody .done)))

include sound in
theorem lays_selectStmt : (selectStmt rules).Lays Stmt.layout := by
  intro ctx st x st' h
  obtain ⟨place, _, hplace, h⟩ := yields_bind.1 h
  obtain ⟨body, _, hbody, h⟩ := yields_bind.1 h
  obtain ⟨rfl, rfl⟩ := yields_pure.1 h
  replace hplace := marks_of_expectKeyword hplace
  replace hbody := lays_clauseBlock (fun hkind h => reads_commClause sound h hkind) hbody
  rw [Stmt.layout]
  exact .intro (hplace.opens rfl) (.token hplace rfl rfl (.check (.item hbody .done)))

/-! ## All statements -/

include sound in
theorem lays_callOperand {keyword : Keyword} : (callOperand rules keyword).Lays Call.layout := by
  intro ctx st x st' h
  obtain ⟨expr, _, hexpr, h⟩ := yields_bind.1 h
  split at h
  · obtain ⟨rfl, rfl⟩ := yields_pure.1 h
    exact sound.expr hexpr
  · exact absurd h not_yields_failAt

include sound in
theorem reads_returnStmt {x : Stmt} (h : (returnStmt rules).Yields ctx st x st')
    (hkind : st.nextKind? = some (.keyword .returnKw)) : x.layout.Reads st st' := by
  obtain ⟨place, _, hplace, h⟩ := yields_bind.1 h
  replace hplace := marks_of_takePlace hplace hkind
  have h := (yields_peek peeks_peekKind?).1 h
  split at h
  · obtain ⟨rfl, rfl⟩ := yields_pure.1 h
    rw [Stmt.layout]
    exact .intro (hplace.opens rfl) (.token hplace rfl rfl (.check (.listDone .done)))
  · obtain ⟨⟨results, commas⟩, _, hresults, h⟩ := yields_bind.1 h
    obtain ⟨rfl, rfl⟩ := yields_pure.1 h
    replace hresults := readsRun_exprList sound hresults
    rw [Stmt.layout, Expr.layouts_eq_map]
    exact .intro (hplace.opens rfl) (.token hplace rfl rfl (.check (hresults.list .done)))

theorem reads_branch {keyword : Keyword} {x : Stmt} (h : (branch keyword).Yields ctx st x st')
    (hkind : st.nextKind? = some (.keyword keyword)) : x.layout.Reads st st' := by
  obtain ⟨place, _, hplace, h⟩ := yields_bind.1 h
  replace hplace := marks_of_takePlace hplace hkind
  obtain ⟨isIdent, _, hpeek, h⟩ := yields_bind.1 h
  obtain ⟨-, rfl⟩ := (yields_of_peeks peeks_nextIsIdent).1 hpeek
  obtain ⟨label?, _, hlabel, h⟩ := yields_ite_bind.1 h
  obtain ⟨rfl, rfl⟩ := yields_pure.1 h
  replace hlabel := readsOpt_of_ite lays_expectIdent hlabel
  rw [Stmt.layout]
  exact .intro (hplace.opens rfl) (.lexeme hplace rfl rfl (.check (.itemOpt hlabel .done)))

include sound in
theorem reads_declStmt {keyword : Keyword} {x : Stmt}
    (h : Yields (do return Stmt.decl (← genDecl rules keyword)) ctx st x st') :
    x.layout.Reads st st' := by
  obtain ⟨decl, _, hdecl, h⟩ := yields_bind.1 h
  obtain ⟨rfl, rfl⟩ := yields_pure.1 h
  rw [Stmt.layout]
  exact Layout.Reads.wrap_iff.2 (lays_genDecl sound hdecl)

include sound in
theorem reads_keywordStmt {word : Keyword} {x : Stmt}
    (h : (keywordStmt rules word).Yields ctx st x st')
    (hkind : st.nextKind? = some (.keyword word)) : x.layout.Reads st st' := by
  unfold keywordStmt at h
  split at h
  · exact reads_declStmt sound h
  · exact reads_declStmt sound h
  · exact reads_declStmt sound h
  · exact reads_returnStmt sound h hkind
  · exact reads_branch h hkind
  · exact reads_branch h hkind
  · exact reads_branch h hkind
  · obtain ⟨place, _, hplace, h⟩ := yields_bind.1 h
    obtain ⟨rfl, rfl⟩ := yields_pure.1 h
    replace hplace := marks_of_takePlace hplace hkind
    rw [Stmt.layout]
    exact .intro (hplace.opens rfl) (.lexeme hplace rfl rfl (.check (.silent rfl .done)))
  · exact sound.ifStmt h
  · exact lays_forStmt sound h
  · exact lays_switchStmt sound h
  · exact lays_selectStmt sound h
  · obtain ⟨place, _, hplace, h⟩ := yields_bind.1 h
    obtain ⟨call, _, hcall, h⟩ := yields_bind.1 h
    obtain ⟨rfl, rfl⟩ := yields_pure.1 h
    replace hplace := marks_of_takePlace hplace hkind
    rw [Stmt.layout]
    exact .intro (hplace.opens rfl)
      (.token hplace rfl rfl (.check (.item (lays_callOperand sound hcall) .done)))
  · obtain ⟨place, _, hplace, h⟩ := yields_bind.1 h
    obtain ⟨call, _, hcall, h⟩ := yields_bind.1 h
    obtain ⟨rfl, rfl⟩ := yields_pure.1 h
    replace hplace := marks_of_takePlace hplace hkind
    rw [Stmt.layout]
    exact .intro (hplace.opens rfl)
      (.token hplace rfl rfl (.check (.item (lays_callOperand sound hcall) .done)))
  · exact lays_simpleStmt sound h

include sound in
/-- **Every statement is read.** -/
theorem lays_stmt : (stmt rules).Lays Stmt.layout := by
  intro ctx st x st' h
  have h := (yields_peek peeks_peekKind?).1 h
  split at h
  · exact reads_keywordStmt sound h ‹_›
  · obtain ⟨block, _, hblock, h⟩ := yields_bind.1 h
    obtain ⟨rfl, rfl⟩ := yields_pure.1 h
    exact sound.block hblock
  · rename_i hkind
    obtain ⟨place, _, hplace, h⟩ := yields_bind.1 h
    obtain ⟨rfl, rfl⟩ := yields_pure.1 h
    replace hplace := marks_of_takePlace hplace hkind
    rw [Stmt.layout]
    exact .intro (hplace.opens rfl) (.token hplace rfl rfl .done)
  · exact lays_simpleStmt sound h

include sound in
theorem reads_stmtLine {x : Stmt} (h : (stmtLine rules).Yields ctx st x st') :
    ∃ st₁, x.layout.Reads st st₁ ∧ Skips st₁ st' := by
  obtain ⟨stmt, st₁, hstmt, h⟩ := yields_bind.1 h
  replace hstmt := lays_stmt sound hstmt
  split at h
  · obtain ⟨rfl, rfl⟩ := yields_pure.1 h
    exact ⟨st₁, hstmt, .inl rfl⟩
  · obtain ⟨_, _, hline, h⟩ := yields_bind.1 h
    obtain ⟨rfl, rfl⟩ := yields_pure.1 h
    exact ⟨st₁, hstmt, skips_of_endOfLine hline⟩

include sound in
theorem readsLines_stmts {xs : List Stmt} (h : (stmts rules).Yields ctx st xs st') :
    ReadsLines (xs.map Stmt.layout) st st' := by
  have hpeeks : Peeks (do return endsStmts (← peekKind?)) fun st => endsStmts st.nextKind? :=
    fun _ _ => rfl
  exact readsLines_of_many hpeeks (fun _ => reads_stmtLine sound) h

include sound in
theorem lays_block : (block rules).Lays Block.layout := by
  intro ctx st x st' h
  obtain ⟨lbrace, _, hlbrace, h⟩ := yields_bind.1 h
  obtain ⟨body, _, hbody, h⟩ := yields_bind.1 h
  obtain ⟨rbrace, _, hrbrace, h⟩ := yields_bind.1 h
  obtain ⟨rfl, rfl⟩ := yields_pure.1 h
  replace hlbrace := marks_of_expectOp hlbrace
  replace hbody := readsLines_stmts sound (yields_withLiterals.1 hbody)
  replace hrbrace := marks_of_expectOp hrbrace
  rw [Block.layout, Stmt.layouts_eq_map]
  refine .intro (hlbrace.opens rfl) (.token hlbrace rfl rfl (.check (hbody.list ?_)))
  exact .token hrbrace rfl rfl .done

end GoTrace.Grammar
