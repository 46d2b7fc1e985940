import GoTrace.Proofs.Grammar.Ensures
import GoTrace.Proofs.Syntax.Formed

/-!
# Where statements have an open end

Behind a statement with an open end the next token is a closing brace, at the place of the end:
`Parser.Shuts` says so of the rules for statements. So such a statement is the last of the block or
clause that it is in, and the brace is the one that closes the block.
-/

namespace GoTrace

/-- The next token is a closing brace, and stands at the place. -/
def ParseState.BraceAt (st : ParseState) (place : Offset) : Prop :=
  ∃ t rest, st.tokens = t :: rest ∧ t.kind = .operator .rbrace ∧ t.span.start = place

theorem ParseState.BraceAt.nextKind? {st : ParseState} {place : Offset} (h : st.BraceAt place) :
    st.nextKind? = some (.operator .rbrace) := by
  obtain ⟨t, rest, htokens, hkind, -⟩ := h
  rw [ParseState.nextKind?, htokens, ← hkind]
  rfl

/-- A closing brace that is next stands where the next token starts. -/
theorem ParseState.braceAt_of_nextKind? {st : ParseState}
    (h : st.nextKind? = some (.operator .rbrace)) :
    st.BraceAt ((st.tokens.head?.map Token.span).getD (Span.empty st.lastStop)).start := by
  obtain ⟨tokens, comments, lastStop⟩ := st
  cases tokens with
  | nil => cases h
  | cons t rest => exact ⟨t, rest, rfl, Option.some.inj h, rfl⟩

namespace Parser

variable {α β : Type}

/-- Behind a statement with an open end, a closing brace is next, at the end of the statement. -/
def Shuts (p : Parser Stmt) : Prop :=
  ∀ ⦃ctx st s st'⦄, p.Yields ctx st s st' → ∀ place ∈ s.openEnd?, st'.BraceAt place

/-- Only the last of some statements may have an open end, and behind it a closing brace is next. -/
def ShutsLast (p : Parser (List Stmt)) : Prop :=
  ∀ ⦃ctx st ss st'⦄, p.Yields ctx st ss st' →
    Stmt.OpenLast ss ∧ ∀ place ∈ Stmt.lastOpenEnd? ss, st'.BraceAt place

theorem shuts_of_closed {p : Parser Stmt} (h : p.Ensures (·.openEnd? = none)) : p.Shuts := by
  intro ctx st s st' hyields place hplace
  rw [h hyields] at hplace
  cases hplace

theorem shuts_bind {p : Parser α} {f : α → Parser Stmt} (hf : ∀ a, (f a).Shuts) :
    (p >>= f).Shuts := by
  intro ctx st s st' hyields
  obtain ⟨a, st₁, -, hs⟩ := yields_bind.1 hyields
  exact hf a hs

/-- Around a statement others may be put that end with it. -/
theorem Shuts.pure {p : Parser Stmt} {g : Stmt → Stmt} (hp : p.Shuts)
    (hg : ∀ s, (g s).openEnd? = s.openEnd?) : (p >>= fun s => Pure.pure (g s)).Shuts := by
  intro ctx st s st' hyields place hplace
  obtain ⟨s, st₁, hs, hpure⟩ := yields_bind.1 hyields
  obtain ⟨rfl, rfl⟩ := yields_pure.1 hpure
  rw [hg] at hplace
  exact hp hs place hplace

/-- A clause ends with the last of its statements. -/
theorem ShutsLast.pure {p : Parser (List Stmt)} {g : List Stmt → Stmt} (hp : p.ShutsLast)
    (hg : ∀ ss, (g ss).openEnd? = Stmt.lastOpenEnd? ss) :
    (p >>= fun ss => Pure.pure (g ss)).Shuts := by
  intro ctx st s st' hyields place hplace
  obtain ⟨ss, st₁, hss, hpure⟩ := yields_bind.1 hyields
  obtain ⟨rfl, rfl⟩ := yields_pure.1 hpure
  rw [hg] at hplace
  exact (hp hss).2 place hplace

theorem Shuts.ite {c : Prop} [Decidable c] {p q : Parser Stmt} (hp : p.Shuts) (hq : q.Shuts) :
    (if c then p else q).Shuts := by
  split
  · exact hp
  · exact hq

theorem ShutsLast.withLiterals {allowed : Bool} {p : Parser (List Stmt)} (h : p.ShutsLast) :
    (withLiterals allowed p).ShutsLast := fun _ _ _ _ hyields => h (yields_withLiterals.1 hyields)

/-- Statements that are read until a closing brace follows. -/
theorem shutsLast_many {done : Parser Bool} {item : Parser Stmt} {v : ParseState → Bool}
    (hdone : done.Peeks v) (hv : ∀ {st}, st.nextKind? = some (.operator .rbrace) → v st = true)
    (hitem : item.Shuts) : (many done item).ShutsLast := by
  intro ctx st ss st' hyields
  replace hyields := collected_of_collect hyields
  induction hyields with
  | done _ => exact ⟨nofun, nofun⟩
  | last _ h =>
    obtain ⟨_, _, -, h⟩ := yields_bind.1 h
    cases (yields_pure.1 h).1
  | next _ h rest ih =>
    obtain ⟨x, _, hx, h⟩ := yields_bind.1 h
    obtain ⟨heq, rfl⟩ := yields_pure.1 h
    obtain rfl := congrArg Prod.fst heq
    have hstop : ∀ {st₁ st₂ place}, x.openEnd? = some place → item.Yields ctx st₁ x st₂ →
        v st₂ = true := fun hopen hx => hv (hitem hx _ hopen).nextKind?
    cases rest with
    | done hdone' =>
      obtain ⟨-, rfl⟩ := (yields_of_peeks hdone).1 hdone'
      exact ⟨nofun, hitem hx⟩
    | last hdone' _ | next hdone' _ _ =>
      -- more statements follow, so the brace does not
      obtain ⟨hnot, -⟩ := (yields_of_peeks hdone).1 hdone'
      refine ⟨?_, ih.2⟩
      have hclosed : x.openEnd? = none := by
        cases hopen : x.openEnd? with
        | none => rfl
        | some place =>
          rw [hstop hopen hx] at hnot
          cases hnot
      exact List.forall_mem_cons.2 ⟨hclosed, ih.1⟩

end Parser

/-- The rules one level deeper that return statements shut their open ends. -/
structure Nested.Shutting (rules : Nested) : Prop where
  ifStmt : rules.ifStmt.Ensures (·.openEnd? = none)
  stmt : rules.stmt.Shuts
  stmts : rules.stmts.ShutsLast

namespace Grammar

open GoTrace.Parser

variable {rules : Nested} (shutting : rules.Shutting)

/-! ## Simple statements -/

theorem closed_exprStmt (left : List Expr) : (exprStmt left).Ensures (·.openEnd? = none) :=
  ensures_bind fun _ => ensures_pure rfl

theorem closed_assignment (left : List Expr) (leftCommas : List Offset) (place : Offset)
    (op : Operator) : (assignment rules left leftCommas place op).Ensures (·.openEnd? = none) :=
  ensures_bind fun _ => ensures_pure rfl

theorem closed_incDec (left : List Expr) (op : Operator) :
    (incDec left op).Ensures (·.openEnd? = none) :=
  ensures_bind fun _ => ensures_bind fun _ => ensures_pure rfl

theorem closed_send (left : List Expr) : (send rules left).Ensures (·.openEnd? = none) :=
  ensures_bind fun _ => ensures_bind fun _ => ensures_bind fun _ => ensures_pure rfl

include shutting

/-- The empty statement behind a label is where the brace is that follows. -/
theorem shuts_labeledBody : (labeledBody rules).Shuts := by
  intro ctx st s st' hyields
  have hyields := (yields_peek (peeks_nextIsOp .rbrace)).1 hyields
  split at hyields
  · rename_i hnext
    replace hyields := (yields_peek peeks_peekSpan).1 hyields
    obtain ⟨rfl, rfl⟩ := yields_pure.1 hyields
    rintro place ⟨⟩
    exact ParseState.braceAt_of_nextKind? (beq_iff_eq.1 hnext)
  · exact shutting.stmt hyields

theorem shuts_labeled (labels : Bool) (left : List Expr) : (labeled rules labels left).Shuts := by
  unfold labeled
  split
  · exact shuts_bind fun _ => (shuts_labeledBody shutting).pure fun _ => rfl
  · exact shuts_of_closed (closed_exprStmt left)

theorem shuts_simpleRest (labels : Bool) (left : List Expr) (leftCommas : List Offset) :
    (simpleRest rules labels left leftCommas).Shuts := by
  refine shuts_bind fun op? => ?_
  cases op? with
  | none => exact shuts_of_closed (closed_exprStmt left)
  | some op =>
    refine .ite (shuts_bind fun place => ?_) ?_
    · exact shuts_of_closed (closed_assignment left leftCommas place op)
    · split
      · exact shuts_of_closed (closed_incDec left .inc)
      · exact shuts_of_closed (closed_incDec left .dec)
      · exact shuts_labeled shutting labels left
      · exact shuts_of_closed (closed_send left)
      · exact shuts_of_closed (closed_exprStmt left)

theorem shuts_simpleStmt (labels : Bool) : (simpleStmt rules labels).Shuts :=
  shuts_bind fun (left, leftCommas) => shuts_simpleRest shutting labels left leftCommas

/-! ## Clauses -/

theorem shuts_caseClause : (caseClause rules).Shuts :=
  shuts_bind fun _ => .ite
    (shuts_bind fun _ => shuts_bind fun _ => shutting.stmts.pure fun _ => rfl)
    (shuts_bind fun _ => shuts_bind fun _ => shuts_bind fun _ => shutting.stmts.pure fun _ => rfl)

theorem shuts_commClause : (commClause rules).Shuts :=
  shuts_bind fun _ => .ite
    (shuts_bind fun _ => shuts_bind fun _ => shutting.stmts.pure fun _ => rfl)
    (shuts_bind fun _ => shuts_bind fun _ => shuts_bind fun _ => shutting.stmts.pure fun _ => rfl)

omit shutting in
/-- Statements between braces of which the last shuts its open end. -/
theorem formed_between_braces {p : Parser (List Stmt)} (hp : p.ShutsLast) (lbrace : Offset) :
    (p >>= fun stmts => return (⟨lbrace, stmts, ← expectOp .rbrace⟩ : Block)).Ensures
      Block.Formed := by
  intro ctx st b st' hyields
  obtain ⟨stmts, _, hstmts, h⟩ := yields_bind.1 hyields
  obtain ⟨rbrace, _, hrbrace, h⟩ := yields_bind.1 h
  obtain ⟨rfl, rfl⟩ := yields_pure.1 h
  obtain ⟨t, ht, -, rfl⟩ := marks_of_expectOp hrbrace
  obtain ⟨hlast, hbrace⟩ := hp hstmts
  refine ⟨hlast, fun place hplace => ?_⟩
  -- the brace that is taken is the one that is next behind the statements
  obtain ⟨u, rest, htokens, -, rfl⟩ := hbrace place hplace
  obtain ⟨rfl, -⟩ := List.cons.inj (ht.tokens.symm.trans htokens)
  rfl

omit shutting in
/-- Clauses end in front of a closing brace. -/
theorem shutsLast_clauses {clause : Parser Stmt} (hclause : clause.Shuts) :
    (many (return !((← nextIsKeyword .caseKw) || (← nextIsKeyword .defaultKw)))
      clause).ShutsLast := by
  have hdone : Peeks (return !((← nextIsKeyword .caseKw) || (← nextIsKeyword .defaultKw)))
      fun st => !(st.nextKind? == some (.keyword .caseKw) ||
        st.nextKind? == some (.keyword .defaultKw)) := fun _ _ => rfl
  refine shutsLast_many hdone (fun {st} hnext => ?_) hclause
  rw [hnext]
  rfl

omit shutting in
theorem formed_clauseBlock {clause : Parser Stmt} (hclause : clause.Shuts) :
    (clauseBlock clause).Ensures Block.Formed :=
  ensures_bind fun lbrace => formed_between_braces (shutsLast_clauses hclause) lbrace

/-! ## All statements -/

omit shutting in
theorem closed_ifStmt : (ifStmt rules).Ensures (·.openEnd? = none) := by
  refine ensures_bind fun _ => ensures_bind fun (init?, semicolon?, cond) => ?_
  refine ensures_bind fun body => ensures_bind fun _ => .ite ?_ (ensures_pure rfl)
  exact ensures_bind fun _ => ensures_bind fun _ => ensures_pure rfl

omit shutting in
theorem closed_forStmt : (forStmt rules).Ensures (·.openEnd? = none) := by
  refine ensures_bind fun _ => ensures_bind fun header => ensures_bind fun _ => ensures_pure ?_
  cases header <;> rfl

omit shutting in
theorem closed_switchStmt : (switchStmt rules).Ensures (·.openEnd? = none) := by
  refine ensures_bind fun _ => ensures_bind fun (init?, semicolon?, tag?) =>
    ensures_bind fun _ => ?_
  cases tag? with
  | none => exact ensures_pure rfl
  | some tag => exact .ite (ensures_pure rfl) (ensures_bind fun _ => ensures_pure rfl)

omit shutting in
theorem closed_selectStmt : (selectStmt rules).Ensures (·.openEnd? = none) :=
  ensures_bind fun _ => ensures_bind fun _ => ensures_pure rfl

omit shutting in
theorem closed_returnStmt : (returnStmt rules).Ensures (·.openEnd? = none) :=
  ensures_bind fun _ => ensures_bind fun _ =>
    .ite (ensures_pure rfl) (ensures_bind fun _ => ensures_pure rfl)

omit shutting in
theorem closed_branch (keyword : Keyword) : (branch keyword).Ensures (·.openEnd? = none) :=
  ensures_bind fun _ => ensures_bind fun _ =>
    ensures_ite_bind ensures_true ensures_true fun _ _ => ensures_pure rfl

theorem shuts_keywordStmt (keyword : Keyword) : (keywordStmt rules keyword).Shuts := by
  unfold keywordStmt
  split
  · exact shuts_of_closed (ensures_bind fun _ => ensures_pure rfl)
  · exact shuts_of_closed (ensures_bind fun _ => ensures_pure rfl)
  · exact shuts_of_closed (ensures_bind fun _ => ensures_pure rfl)
  · exact shuts_of_closed closed_returnStmt
  · exact shuts_of_closed (closed_branch .breakKw)
  · exact shuts_of_closed (closed_branch .continueKw)
  · exact shuts_of_closed (closed_branch .gotoKw)
  · exact shuts_of_closed (ensures_bind fun _ => ensures_pure rfl)
  · exact shuts_of_closed shutting.ifStmt
  · exact shuts_of_closed closed_forStmt
  · exact shuts_of_closed closed_switchStmt
  · exact shuts_of_closed closed_selectStmt
  · exact shuts_of_closed (ensures_bind fun _ => ensures_bind fun _ => ensures_pure rfl)
  · exact shuts_of_closed (ensures_bind fun _ => ensures_bind fun _ => ensures_pure rfl)
  · exact shuts_simpleStmt shutting true

theorem shuts_stmt : (stmt rules).Shuts := by
  refine shuts_bind fun kind? => ?_
  split
  · exact shuts_keywordStmt shutting _
  · exact shuts_of_closed (ensures_bind fun _ => ensures_pure rfl)
  · exact shuts_of_closed (ensures_bind fun _ => ensures_pure rfl)
  · exact shuts_simpleStmt shutting true

/-- In front of a closing brace the end of a line takes nothing. -/
theorem shuts_stmtLine : (stmtLine rules).Shuts := by
  intro ctx st s st' hyields place hplace
  obtain ⟨x, st₁, hx, h⟩ := yields_bind.1 hyields
  split at h
  · obtain ⟨rfl, rfl⟩ := yields_pure.1 h
    exact shuts_stmt shutting hx place hplace
  · obtain ⟨_, st₂, hend, h⟩ := yields_bind.1 h
    obtain ⟨rfl, rfl⟩ := yields_pure.1 h
    have hbrace := shuts_stmt shutting hx place hplace
    replace hend := (yields_peek peeks_peekKind?).1 hend
    rw [hbrace.nextKind?] at hend
    obtain ⟨-, rfl⟩ := yields_pure.1 hend
    exact hbrace

theorem shutsLast_stmts : (stmts rules).ShutsLast := by
  have hdone : Peeks (return endsStmts (← peekKind?)) fun st => endsStmts st.nextKind? :=
    fun _ _ => rfl
  refine shutsLast_many hdone (fun {st} hnext => ?_) (shuts_stmtLine shutting)
  rw [hnext]
  rfl

theorem formed_block : (block rules).Ensures Block.Formed :=
  ensures_bind fun lbrace => formed_between_braces (shutsLast_stmts shutting).withLiterals lbrace

end Grammar

/-- At every level open ends are shut. -/
theorem shutting_level (depth : Nat) : (Nested.level depth).Shutting := by
  induction depth with
  | zero =>
    exact {
      ifStmt := Parser.ensures_failHere
      stmt := Parser.shuts_of_closed Parser.ensures_failHere
      stmts := fun _ _ _ _ hyields => absurd hyields Parser.not_yields_failHere }
  | succ depth shutting =>
    exact {
      ifStmt := Grammar.closed_ifStmt
      stmt := Grammar.shuts_stmt shutting
      stmts := Grammar.shutsLast_stmts shutting }

end GoTrace
