import GoTrace.Proofs.Grammar.Types

/-!
# What the rules for expressions read

A rule for something behind an expression starts where the expression stops, and what it returns is
read from where the expression starts. The loops of primary and binary expressions keep that their
expression has been read.
-/

namespace GoTrace.Grammar

open GoTrace.Parser

variable {rules : Nested} (sound : rules.Sound) {ctx : ParseContext} {st₀ st st' : ParseState}

include sound in
theorem readsRun_exprList {exprs : List Expr} {commas : List Offset}
    (h : (exprList rules).Yields ctx st (exprs, commas) st') :
    ReadsRun (exprs.map Expr.layout) commas st st' :=
  readsRun_of_commaSeparated sound.expr h

/-! ## Composite literals -/

include sound in
theorem lays_elementPart : (elementPart rules).Lays Expr.layout := by
  intro ctx st x st' h
  have h := (yields_peek (peeks_nextIsOp _)).1 h
  split at h
  · exact sound.literal h rfl
  · exact sound.expr h

include sound in
theorem lays_element : (element rules).Lays Expr.layout := by
  intro ctx st x st' h
  obtain ⟨key, _, hkey, h⟩ := yields_bind.1 h
  obtain ⟨colon?, _, hcolon, h⟩ := yields_bind.1 h
  replace hkey := lays_elementPart sound hkey
  replace hcolon := marks_of_takeOp? hcolon
  cases colon? with
  | none =>
    obtain ⟨rfl, rfl⟩ := yields_pure.1 h
    obtain rfl := hcolon
    exact hkey
  | some colon =>
    obtain ⟨value, _, hvalue, h⟩ := yields_bind.1 h
    obtain ⟨rfl, rfl⟩ := yields_pure.1 h
    replace hvalue := lays_elementPart sound hvalue
    rw [Expr.layout]
    refine .intro hkey.1 (.item hkey (.check (.token hcolon rfl rfl (.check ?_))))
    exact .item hvalue .done

include sound in
theorem readsItems_of_elements {items : List (Expr × Option Offset)}
    (h : (collect (nextIsOp .rbrace) (elementAndComma rules)).Yields ctx st items st') :
    ReadsItems (items.map fun item => (item.1.layout, item.2)) st st' := by
  have helement : ∀ {st item last st'}, (elementAndComma rules).Yields ctx st (item, last) st' →
      ∃ st₁, item.1.layout.Reads st st₁ ∧ MarksOpt (.operator .comma) item.2 st₁ st' := by
    intro st item last st' h
    obtain ⟨x, st₁, hx, h⟩ := yields_bind.1 h
    obtain ⟨comma?, _, hcomma, h⟩ := yields_bind.1 h
    obtain ⟨heq, rfl⟩ := yields_pure.1 h
    obtain ⟨rfl, -⟩ := Prod.mk.inj heq
    exact ⟨st₁, lays_element sound hx, marks_of_takeOp? hcomma⟩
  replace h := collected_of_collect h
  induction h with
  | done h =>
    obtain ⟨-, rfl⟩ := (yields_of_peeks (peeks_nextIsOp _)).1 h
    exact .nil
  | last hmore h =>
    obtain ⟨-, rfl⟩ := (yields_of_peeks (peeks_nextIsOp _)).1 hmore
    obtain ⟨st₁, hx, hcomma⟩ := helement h
    exact .cons hx hcomma .nil
  | next hmore h _ ih =>
    obtain ⟨-, rfl⟩ := (yields_of_peeks (peeks_nextIsOp _)).1 hmore
    obtain ⟨st₁, hx, hcomma⟩ := helement h
    exact .cons hx hcomma ih

include sound in
/-- A composite literal is read from its type on. -/
theorem reads_literal {type? : Option Expr} {x : Expr}
    (h : (literal rules type?).Yields ctx st x st')
    (htype : ReadsOpt (Expr.layout? type?) st₀ st) : x.layout.Reads st₀ st' := by
  obtain ⟨lbrace, _, hlbrace, h⟩ := yields_bind.1 h
  obtain ⟨items, _, hitems, h⟩ := yields_bind.1 h
  obtain ⟨rbrace, _, hrbrace, h⟩ := yields_bind.1 h
  obtain ⟨rfl, rfl⟩ := yields_pure.1 h
  replace hlbrace := marks_of_expectOp hlbrace
  replace hitems := readsItems_of_elements sound (yields_withLiterals.1 hitems)
  replace hrbrace := marks_of_expectOp hrbrace
  have hopens : Opens (((Expr.layout? type?).map Layout.start).getD lbrace) st₀ := by
    cases type? with
    | none =>
      obtain rfl := htype
      exact hlbrace.opens rfl
    | some type => exact htype.1
  have helements : Expr.layouts (items.map (·.1)) =
      (items.map fun item => (item.1.layout, item.2)).map Prod.fst := by simp
  have hcommas : items.filterMap (·.2) =
      (items.map fun item => (item.1.layout, item.2)).filterMap Prod.snd := by
    rw [List.filterMap_map]
    rfl
  rw [Expr.layout, helements, hcommas]
  refine .intro hopens (.itemOpt htype (.check (.token hlbrace rfl rfl (.check ?_))))
  exact hitems.list fun place => .token hrbrace rfl rfl .done

/-! ## Calls -/

/-- An argument with its layout. -/
def Argument.laid (a : Argument) : LaidArgument := ⟨a.value.layout, a.dots?, a.comma?⟩

/-- The arguments of a call are read; each but the last has a comma behind it. -/
inductive ReadsArguments : List LaidArgument → ParseState → ParseState → Prop
  | nil {st : ParseState} : ReadsArguments [] st st
  | last {a : LaidArgument} {st st₁ st₂ st' : ParseState} (h : a.layout.Reads st st₁)
      (hdots : MarksOpt (.operator .ellipsis) a.dots? st₁ st₂)
      (hcomma : MarksOpt (.operator .comma) a.comma? st₂ st') : ReadsArguments [a] st st'
  | next {a : LaidArgument} {args : List LaidArgument} {comma : Offset}
      {st st₁ st₂ st₃ st' : ParseState}
      (h : a.layout.Reads st st₁) (hdots : MarksOpt (.operator .ellipsis) a.dots? st₁ st₂)
      (heq : a.comma? = some comma) (hcomma : Marks (.operator .comma) comma st₂ st₃)
      (rest : ReadsArguments args st₃ st') : ReadsArguments (a :: args) st st'

include sound in
/-- An argument is read, with the dots and the comma behind it. -/
private theorem reads_argument {a : Argument} {last : Bool}
    (h : (argument rules).Yields ctx st (a, last) st') :
    ∃ st₁ st₂, a.value.layout.Reads st st₁ ∧ MarksOpt (.operator .ellipsis) a.dots? st₁ st₂ ∧
      MarksOpt (.operator .comma) a.comma? st₂ st' ∧ last = a.comma?.isNone := by
  obtain ⟨value, st₁, hvalue, h⟩ := yields_bind.1 h
  obtain ⟨dots?, st₂, hdots, h⟩ := yields_bind.1 h
  obtain ⟨comma?, _, hcomma, h⟩ := yields_bind.1 h
  obtain ⟨heq, rfl⟩ := yields_pure.1 h
  obtain ⟨rfl, rfl⟩ := Prod.mk.inj heq
  exact ⟨st₁, st₂, sound.expr hvalue, marks_of_takeOp? hdots, marks_of_takeOp? hcomma, rfl⟩

include sound in
theorem readsArguments_of_collect {args : List Argument}
    (h : (collect (nextIsOp .rparen) (argument rules)).Yields ctx st args st') :
    ReadsArguments (args.map Argument.laid) st st' := by
  replace h := collected_of_collect h
  induction h with
  | done h =>
    obtain ⟨-, rfl⟩ := (yields_of_peeks (peeks_nextIsOp _)).1 h
    exact .nil
  | last hmore h =>
    obtain ⟨-, rfl⟩ := (yields_of_peeks (peeks_nextIsOp _)).1 hmore
    obtain ⟨st₁, st₂, hvalue, hdots, hcomma, -⟩ := reads_argument sound h
    exact .last hvalue hdots hcomma
  | @next a args _ _ _ _ hmore h _ ih =>
    obtain ⟨-, rfl⟩ := (yields_of_peeks (peeks_nextIsOp _)).1 hmore
    obtain ⟨st₁, st₂, hvalue, hdots, hcomma, hlast⟩ := reads_argument sound h
    obtain ⟨comma, heq⟩ := Option.isSome_iff_exists.1 (Option.isNone_eq_false_iff.1 hlast.symm)
    rw [heq] at hcomma
    exact .next hvalue hdots heq hcomma ih

/-- An argument reads its rows. -/
private theorem readsRows_argument {a : LaidArgument} {place : Offset} {st₁ st₂ st₃ : ParseState}
    (h : a.layout.Reads st st₁) (hdots : MarksOpt (.operator .ellipsis) a.dots? st₁ st₂)
    (hcomma : MarksOpt (.operator .comma) a.comma? st₂ st₃) :
    ∃ mid, ∀ {rows q}, ReadsRows true true rows ⟨mid, st₃⟩ q →
      ReadsRows true true (a.rows ++ rows) ⟨place, st⟩ q := by
  obtain ⟨layout, dots?, comma?⟩ := a
  cases dots? with
  | none =>
    obtain rfl := hdots
    exact ⟨_, fun rest => .item h (.silent rfl (.tokenOpt hcomma rfl rfl rest))⟩
  | some dots =>
    exact ⟨_, fun rest => .item h
      (.word rfl hdots rfl rfl (fun _ => .inl rfl) (.tokenOpt hcomma rfl rfl rest))⟩

/-- The rows of the arguments are read one after the other. -/
theorem ReadsArguments.rows {args : List LaidArgument} (h : ReadsArguments args st st')
    (place : Offset) :
    ∃ stop, ReadsRows true true (args.flatMap LaidArgument.rows) ⟨place, st⟩ ⟨stop, st'⟩ := by
  induction h generalizing place with
  | nil => exact ⟨place, .done⟩
  | last h hdots hcomma =>
    obtain ⟨mid, hrows⟩ := readsRows_argument h hdots hcomma
    exact ⟨mid, hrows .done⟩
  | @next a args comma st st₁ st₂ st₃ st' h hdots heq hcomma _ ih =>
    have hcomma' : MarksOpt (.operator .comma) a.comma? st₂ st₃ := by
      rw [heq]
      exact hcomma
    obtain ⟨mid, hrows⟩ := readsRows_argument h hdots hcomma'
    obtain ⟨stop, hrest⟩ := ih mid
    exact ⟨stop, hrows hrest⟩

/-- Dots with a comma and another argument behind them are stray. -/
private theorem strayDots_of_marks {dots comma place : Offset} {st₁ st₂ : ParseState}
    (hdots : Marks (.operator .ellipsis) dots st st₁)
    (hcomma : Marks (.operator .comma) comma st₁ st₂)
    (hopens : Opens place st₂) : strayDots (written st.tokens) := by
  obtain ⟨t, ht, htkind, -⟩ := hdots
  obtain ⟨u, hu, hukind, -⟩ := hcomma
  obtain ⟨v, vs, hv, -, hvkind⟩ := hopens
  rw [ht.tokens, hu.tokens, hv, written_cons (by rw [htkind]; rfl), written_cons (by rw [hukind]; rfl),
    written_cons (TokenKind.isWritten_of_opens hvkind), strayDots, htkind, hukind]
  have hne : v.kind ≠ .operator .rparen := by
    intro hkind
    rw [hkind] at hvkind
    cases hvkind
  simp [hne]

/-- Without stray dots only the last argument has dots. -/
theorem ReadsArguments.dots_last {args : List LaidArgument} (h : ReadsArguments args st st')
    (hlast : dotsLast (written st.tokens)) : ∀ a ∈ args.dropLast, a.dots? = none := by
  induction h with
  | nil | last _ _ _ => simp
  | @next a args comma st st₁ st₂ st₃ st' h hdots heq hcomma hrest ih =>
    obtain ⟨_, htaken⟩ := h.consumes
    replace hlast := htaken.dotsLast hlast
    rcases args with _ | ⟨b, args⟩
    · simp
    rw [List.dropLast_cons_cons]
    cases hdots? : a.dots? with
    | none =>
      rw [hdots?] at hdots
      obtain rfl : st₁ = st₂ := hdots
      obtain ⟨_, htaken⟩ := hcomma.consumes
      exact List.forall_mem_cons.2 ⟨hdots?, ih (htaken.dotsLast hlast)⟩
    | some dots =>
      rw [hdots?] at hdots
      have hopens : Opens b.layout.start st₃ := by
        cases hrest with
        | last h _ _ | next h _ _ _ _ => exact h.1
      have hstray := strayDots_of_marks hdots hcomma hopens
      rw [strayDots_of_dotsLast hlast] at hstray
      cases hstray

include sound in
/-- A call is read from its function on. -/
theorem reads_call {fn : Expr} {x : Call} (h : (call rules fn).Yields ctx st x st')
    (hfn : fn.layout.Reads st₀ st) : x.layout.Reads st₀ st' := by
  obtain ⟨lparen, _, hlparen, h⟩ := yields_bind.1 h
  obtain ⟨args, _, hargs, h⟩ := yields_bind.1 h
  obtain ⟨rparen, _, hrparen, h⟩ := yields_bind.1 h
  obtain ⟨rfl, rfl⟩ := yields_pure.1 h
  replace hlparen := marks_of_expectOp hlparen
  replace hargs := readsArguments_of_collect sound (yields_withLiterals.1 hargs)
  replace hrparen := marks_of_expectOp hrparen
  obtain ⟨stop, hrows⟩ := hargs.rows (lparen.advance 1)
  rw [Call.layout]
  refine .intro hfn.1 (.item hfn (.check (.token hlparen rfl rfl (.check ?_))))
  refine .call hrows hargs.dots_last ?_ ?_ rfl ?_ ?_ hrparen .done
  · simp [Argument.laid, Function.comp_def]
  · simp [Argument.laid, List.filterMap_map, Function.comp_def]
  · simp [Argument.laid, List.filterMap_map, Function.comp_def]
  · simp [Argument.laid, List.filterMap_map, Function.comp_def]

/-! ## Primary expressions -/

include sound in
theorem readsOpt_bound? {ends : List Operator} {x? : Option Expr}
    (h : (bound? rules ends).Yields ctx st x? st') : ReadsOpt (Expr.layout? x?) st st' := by
  obtain ⟨op?, _, hpeek, h⟩ := yields_bind.1 h
  obtain ⟨-, rfl⟩ := (yields_of_peeks peeks_peekOp?).1 hpeek
  have hexpr : ∀ {x?}, Yields (do return some (← rules.expr)) ctx st x? st' →
      ReadsOpt (Expr.layout? x?) st st' := by
    intro x? h
    obtain ⟨x, _, hx, h⟩ := yields_bind.1 h
    obtain ⟨rfl, rfl⟩ := yields_pure.1 h
    exact sound.expr hx
  cases op? with
  | none => exact hexpr h
  | some op =>
    dsimp only at h
    split at h
    · obtain ⟨rfl, rfl⟩ := yields_pure.1 h
      exact rfl
    · exact hexpr h

include sound in
theorem reads_sliceRest {base x : Expr} {lbrack : Offset} {low? : Option Expr}
    {st₁ st₂ : ParseState} (h : (sliceRest rules base lbrack low?).Yields ctx st x st')
    (hbase : base.layout.Reads st₀ st₁) (hlbrack : Marks (.operator .lbrack) lbrack st₁ st₂)
    (hlow : ReadsOpt (Expr.layout? low?) st₂ st) : x.layout.Reads st₀ st' := by
  obtain ⟨colon, _, hcolon, h⟩ := yields_bind.1 h
  obtain ⟨high?, _, hhigh, h⟩ := yields_bind.1 h
  replace hcolon := marks_of_expectOp hcolon
  replace hhigh := readsOpt_bound? sound hhigh
  have h := (yields_peek (peeks_nextIsOp _)).1 h
  split at h
  · rename_i hkind
    split at h
    · exact absurd h not_yields_failHere
    obtain ⟨secondColon, _, hsecond, h⟩ := yields_bind.1 h
    obtain ⟨max, _, hmax, h⟩ := yields_bind.1 h
    obtain ⟨rbrack, _, hrbrack, h⟩ := yields_bind.1 h
    obtain ⟨rfl, rfl⟩ := yields_pure.1 h
    replace hsecond := marks_of_takePlace hsecond (beq_iff_eq.1 hkind)
    replace hmax := sound.expr hmax
    replace hrbrack := marks_of_expectOp hrbrack
    rw [Expr.layout]
    refine .intro hbase.1 (.item hbase (.check (.token hlbrack rfl rfl (.check ?_))))
    refine .itemOpt hlow (.check (.token hcolon rfl rfl (.itemOpt hhigh (.check ?_))))
    refine .token hsecond rfl rfl (.item hmax (.check (.token hrbrack rfl rfl .done)))
  · obtain ⟨rbrack, _, hrbrack, h⟩ := yields_bind.1 h
    obtain ⟨rfl, rfl⟩ := yields_pure.1 h
    replace hrbrack := marks_of_expectOp hrbrack
    rw [Expr.layout]
    refine .intro hbase.1 (.item hbase (.check (.token hlbrack rfl rfl (.check ?_))))
    refine .itemOpt hlow (.check (.token hcolon rfl rfl (.itemOpt hhigh (.check ?_))))
    exact .silent rfl (.silent rfl (.check (.token hrbrack rfl rfl .done)))

include sound in
theorem reads_indexOrSlice {base x : Expr} (h : (indexOrSlice rules base).Yields ctx st x st')
    (hbase : base.layout.Reads st₀ st) : x.layout.Reads st₀ st' := by
  obtain ⟨lbrack, _, hlbrack, h⟩ := yields_bind.1 h
  obtain ⟨first?, _, hfirst, h⟩ := yields_bind.1 h
  replace hlbrack := marks_of_expectOp hlbrack
  replace hfirst := readsOpt_bound? sound hfirst
  cases first? with
  | none => exact reads_sliceRest sound h hbase hlbrack hfirst
  | some first =>
    have h := (yields_peek (peeks_nextIsOp _)).1 h
    split at h
    · exact reads_sliceRest sound h hbase hlbrack hfirst
    · obtain ⟨rbrack, _, hrbrack, h⟩ := yields_bind.1 h
      obtain ⟨rfl, rfl⟩ := yields_pure.1 h
      replace hrbrack := marks_of_expectOp hrbrack
      rw [Expr.layout]
      refine .intro hbase.1 (.item hbase (.check (.token hlbrack rfl rfl (.check ?_))))
      exact .item hfirst (.check (.token hrbrack rfl rfl .done))

include sound in
theorem reads_typeAssert {base x : Expr} {period : Offset} {st₁ : ParseState}
    (h : (typeAssert rules base period).Yields ctx st x st') (hbase : base.layout.Reads st₀ st₁)
    (hperiod : Marks (.operator .period) period st₁ st) : x.layout.Reads st₀ st' := by
  obtain ⟨lparen, _, hlparen, h⟩ := yields_bind.1 h
  replace hlparen := marks_of_expectOp hlparen
  have h := (yields_peek (peeks_nextIsKeyword _)).1 h
  split at h
  · rename_i hkind
    obtain ⟨keyword, _, hkeyword, h⟩ := yields_bind.1 h
    obtain ⟨rparen, _, hrparen, h⟩ := yields_bind.1 h
    obtain ⟨rfl, rfl⟩ := yields_pure.1 h
    replace hkeyword := marks_of_takePlace hkeyword (beq_iff_eq.1 hkind)
    replace hrparen := marks_of_expectOp hrparen
    rw [Expr.layout]
    refine .intro hbase.1 (.item hbase (.check (.token hperiod rfl rfl (.check ?_))))
    refine .token hlparen rfl rfl (.check (.silent rfl (.token hkeyword rfl rfl (.check ?_))))
    exact .token hrparen rfl rfl .done
  · obtain ⟨type, _, htype, h⟩ := yields_bind.1 h
    obtain ⟨rparen, _, hrparen, h⟩ := yields_bind.1 h
    obtain ⟨rfl, rfl⟩ := yields_pure.1 h
    replace htype := sound.type htype
    replace hrparen := marks_of_expectOp hrparen
    rw [Expr.layout]
    refine .intro hbase.1 (.item hbase (.check (.token hperiod rfl rfl (.check ?_))))
    refine .token hlparen rfl rfl (.check (.item htype (.silent rfl (.check ?_))))
    exact .token hrparen rfl rfl .done

include sound in
theorem reads_selection {base x : Expr} (h : (selection rules base).Yields ctx st x st')
    (hkind : st.nextKind? = some (.operator .period)) (hbase : base.layout.Reads st₀ st) :
    x.layout.Reads st₀ st' := by
  obtain ⟨period, _, hperiod, h⟩ := yields_bind.1 h
  replace hperiod := marks_of_takePlace hperiod hkind
  have h := (yields_peek (peeks_nextIsOp _)).1 h
  split at h
  · exact reads_typeAssert sound h hbase hperiod
  · obtain ⟨name, _, hname, h⟩ := yields_bind.1 h
    obtain ⟨rfl, rfl⟩ := yields_pure.1 h
    replace hname := lays_expectIdent hname
    rw [Expr.layout]
    exact .intro hbase.1 (.item hbase (.check (.token hperiod rfl rfl (.item hname .done))))

include sound in
theorem lays_funcLit : (funcLit rules).Lays Expr.layout := by
  intro ctx st x st' h
  obtain ⟨func, _, hfunc, h⟩ := yields_bind.1 h
  obtain ⟨type, _, htype, h⟩ := yields_bind.1 h
  replace htype := reads_signature_func sound (marks_of_expectKeyword hfunc) htype
  have h := (yields_peek (peeks_nextIsOp _)).1 h
  split at h
  · obtain ⟨body, _, hbody, h⟩ := yields_bind.1 h
    obtain ⟨rfl, rfl⟩ := yields_pure.1 h
    rw [Expr.layout]
    exact .intro htype.1 (.item htype (.check (.item (sound.block hbody) .done)))
  · obtain ⟨rfl, rfl⟩ := yields_pure.1 h
    exact htype

include sound in
theorem reads_parenExpr {x : Expr} (h : (parenExpr rules).Yields ctx st x st')
    (hkind : st.nextKind? = some (.operator .lparen)) : x.layout.Reads st st' := by
  obtain ⟨lparen, _, hlparen, h⟩ := yields_bind.1 h
  obtain ⟨inner, _, hinner, h⟩ := yields_bind.1 h
  obtain ⟨rparen, _, hrparen, h⟩ := yields_bind.1 h
  obtain ⟨rfl, rfl⟩ := yields_pure.1 h
  replace hlparen := marks_of_takePlace hlparen hkind
  replace hinner := sound.expr (yields_withLiterals.1 hinner)
  replace hrparen := marks_of_expectOp hrparen
  rw [Expr.layout]
  refine .intro (hlparen.opens rfl) (.token hlparen rfl rfl (.check ?_))
  exact .item hinner (.check (.token hrparen rfl rfl .done))

include sound in
theorem lays_operand : (operand rules).Lays Expr.layout := by
  intro ctx st x st' h
  have h := (yields_peek peeks_peekKind?).1 h
  split at h
  · obtain ⟨name, _, hname, h⟩ := yields_bind.1 h
    obtain ⟨rfl, rfl⟩ := yields_pure.1 h
    exact lays_expectIdent hname
  · obtain ⟨literal, _, hliteral, h⟩ := yields_bind.1 h
    obtain ⟨rfl, rfl⟩ := yields_pure.1 h
    exact lays_expectLiteral hliteral
  · exact reads_parenExpr sound h ‹_›
  · exact lays_arrayType sound h
  · exact lays_mapType sound h
  · exact lays_structType sound h
  · exact lays_funcLit sound h
  · exact lays_chanType sound h
  · exact lays_interfaceType sound h
  · exact absurd h not_yields_unexpected

theorem state_of_opensLiteral {x : Expr} {opens : Bool}
    (h : (opensLiteral x).Yields ctx st opens st') : st = st' := by
  cases x with
  | ident | selector | index =>
    obtain ⟨ctx', st₁, hread, h⟩ := yields_bind.1 h
    obtain ⟨-, rfl⟩ := yields_pure.1 h
    exact (Prod.mk.inj (Except.ok.inj hread)).2
  | _ => exact (yields_pure.1 h).2

include sound in
theorem reads_primaryStep {x : Expr} {turn : Turn Expr Expr}
    (h : (primaryStep rules x).Yields ctx st turn st') (hx : x.layout.Reads st₀ st) :
    match turn with
    | .goOn y | .stop y => y.layout.Reads st₀ st' := by
  obtain ⟨op?, _, hpeek, h⟩ := yields_bind.1 h
  obtain ⟨rfl, hop⟩ := nextKind?_of_peekOp? hpeek
  split at h
  · obtain ⟨y, _, hy, h⟩ := yields_bind.1 h
    obtain ⟨rfl, rfl⟩ := yields_pure.1 h
    exact reads_selection sound hy (hop rfl) hx
  · obtain ⟨y, _, hy, h⟩ := yields_bind.1 h
    obtain ⟨rfl, rfl⟩ := yields_pure.1 h
    exact reads_indexOrSlice sound (yields_withLiterals.1 hy) hx
  · obtain ⟨y, _, hy, h⟩ := yields_bind.1 h
    obtain ⟨rfl, rfl⟩ := yields_pure.1 h
    exact reads_call sound hy hx
  · obtain ⟨opens, _, hopens, h⟩ := yields_bind.1 h
    obtain rfl := state_of_opensLiteral hopens
    split at h
    · obtain ⟨y, _, hy, h⟩ := yields_bind.1 h
      obtain ⟨rfl, rfl⟩ := yields_pure.1 h
      exact sound.literal hy hx
    · obtain ⟨rfl, rfl⟩ := yields_pure.1 h
      exact hx
  · obtain ⟨rfl, rfl⟩ := yields_pure.1 h
    exact hx

include sound in
theorem lays_primary : (primary rules).Lays Expr.layout := by
  intro ctx st x st' h
  obtain ⟨y, _, hy, h⟩ := yields_bind.1 h
  exact invariant_of_iterate (P := fun x st₁ => x.layout.Reads st st₁)
    (fun hx h => reads_primaryStep sound h hx) (fun hx h => reads_primaryStep sound h hx)
    (lays_operand sound hy) h

/-! ## Operations -/

include sound in
theorem reads_unaryOp {op : Operator} {x : Expr} (h : (unaryOp rules op).Yields ctx st x st')
    (hkind : st.nextKind? = some (.operator op)) (hplain : (TokenKind.operator op).isPlain)
    (hopens : (TokenKind.operator op).opens) : x.layout.Reads st st' := by
  obtain ⟨place, _, hplace, h⟩ := yields_bind.1 h
  obtain ⟨operand, _, hoperand, h⟩ := yields_bind.1 h
  obtain ⟨rfl, rfl⟩ := yields_pure.1 h
  replace hplace := marks_of_takePlace hplace hkind
  rw [Expr.layout]
  exact .intro (hplace.opens hopens)
    (.lexeme hplace hplain rfl (.check (.item (sound.operand hoperand) .done)))

include sound in
theorem reads_deref {x : Expr} (h : (deref rules).Yields ctx st x st')
    (hkind : st.nextKind? = some (.operator .mul)) : x.layout.Reads st st' := by
  obtain ⟨star, _, hstar, h⟩ := yields_bind.1 h
  obtain ⟨operand, _, hoperand, h⟩ := yields_bind.1 h
  obtain ⟨rfl, rfl⟩ := yields_pure.1 h
  replace hstar := marks_of_takePlace hstar hkind
  rw [Expr.layout]
  exact .intro (hstar.opens rfl)
    (.token hstar rfl rfl (.check (.item (sound.operand hoperand) .done)))

include sound in
theorem lays_unary : (unary rules).Lays Expr.layout := by
  intro ctx st x st' h
  obtain ⟨op?, _, hpeek, h⟩ := yields_bind.1 h
  obtain ⟨rfl, hop⟩ := nextKind?_of_peekOp? hpeek
  split at h
  · have h := (yields_peek peeks_peekSecondKind?).1 h
    split at h
    · exact lays_chanType sound h
    · exact reads_unaryOp sound h (hop rfl) rfl rfl
  · exact reads_unaryOp sound h (hop rfl) rfl rfl
  · exact reads_unaryOp sound h (hop rfl) rfl rfl
  · exact reads_unaryOp sound h (hop rfl) rfl rfl
  · exact reads_unaryOp sound h (hop rfl) rfl rfl
  · exact reads_unaryOp sound h (hop rfl) rfl rfl
  · exact reads_deref sound h (hop rfl)
  · exact lays_primary sound h

/-- A step of a binary expression reads one more operand, if the operators of the level are known to
bind at all. -/
theorem reads_binaryStep {precedence : Nat} {operand : Parser Expr} {x : Expr}
    {turn : Turn Expr Expr} (hoperand : operand.Lays Expr.layout) (hprecedence : 0 < precedence)
    (h : (binaryStep precedence operand x).Yields ctx st turn st') (hx : x.layout.Reads st₀ st) :
    match turn with
    | .goOn y | .stop y => y.layout.Reads st₀ st' := by
  obtain ⟨op?, _, hpeek, h⟩ := yields_bind.1 h
  obtain ⟨rfl, hop⟩ := nextKind?_of_peekOp? hpeek
  cases op? with
  | none =>
    obtain ⟨rfl, rfl⟩ := yields_pure.1 h
    exact hx
  | some op =>
    dsimp only at h
    split at h
    · rename_i heq
      obtain ⟨place, _, hplace, h⟩ := yields_bind.1 h
      obtain ⟨y, _, hy, h⟩ := yields_bind.1 h
      obtain ⟨rfl, rfl⟩ := yields_pure.1 h
      replace hplace := marks_of_takePlace hplace (hop rfl)
      -- three dots do not bind
      have hplain : (TokenKind.operator op).isPlain := by
        refine bne_iff_ne.2 ?_
        rintro rfl
        rw [← heq] at hprecedence
        exact absurd hprecedence (by decide)
      dsimp only
      rw [Expr.layout]
      refine .intro hx.1 (.item hx (.check (.lexeme hplace hplain rfl (.check ?_))))
      exact .item (hoperand hy) .done
    · obtain ⟨rfl, rfl⟩ := yields_pure.1 h
      exact hx

include sound in
theorem lays_binary {levels : Nat} (hlevels : levels ≤ 5) :
    (binary rules levels).Lays Expr.layout := by
  induction levels with
  | zero => exact sound.operand
  | succ levels ih =>
    intro ctx st x st' h
    have hoperand : (binary rules levels).Lays Expr.layout := ih (Nat.le_of_succ_le hlevels)
    have hprecedence : 0 < 5 - levels := Nat.sub_pos_of_lt hlevels
    obtain ⟨y, _, hy, h⟩ := yields_bind.1 h
    exact invariant_of_iterate (P := fun x st₁ => x.layout.Reads st st₁)
      (fun hx h => reads_binaryStep hoperand hprecedence h hx)
      (fun hx h => reads_binaryStep hoperand hprecedence h hx) (hoperand hy) h

include sound in
/-- **Every expression is read.** -/
theorem lays_expr : (expr rules).Lays Expr.layout := lays_binary sound (Nat.le_refl 5)

end GoTrace.Grammar
