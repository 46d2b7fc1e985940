import GoTrace.Proofs.Grammar.Ensures
import GoTrace.Proofs.Grammar.LocalRules
import GoTrace.Proofs.Syntax.Chains

/-!
# Binary operations are read as chains

The rule for a binary operation reads a chain of operands and operators, and returns the tree of that
chain which is grouped by precedence, and to the left (`Grammar.yields_binary_iff`).

Both directions are by induction on the level. A level is read by a loop, whose invariant is that the
tree made so far is grouped and reads what has been read. The other way round, the tree of a level is
taken apart along its left side, down to the first operand that belongs to a tighter level; each
operator on the way back up is a turn of the loop (`Grammar.exists_loops`).
-/

namespace GoTrace

/-- How tightly the next token binds two operands; 0 if it does not join two. -/
def ParseState.nextPrecedence (st : ParseState) : Nat :=
  match st.nextKind? with
  | some (.operator op) => op.precedence
  | _ => 0

theorem ParseState.nextPrecedence_le (st : ParseState) : st.nextPrecedence ≤ 5 := by
  unfold nextPrecedence
  split
  · exact Operator.precedence_le _
  · exact Nat.zero_le 5

/-- In front of an operator that is taken, its precedence is seen. -/
theorem Marks.nextPrecedence {op : Operator} {place : Offset} {st st' : ParseState}
    (h : Marks (.operator op) place st st') : st.nextPrecedence = op.precedence := by
  obtain ⟨t, ht, hkind, -⟩ := h
  rw [ParseState.nextPrecedence, Parser.nextKind?_of_takes ht, hkind]

namespace Parser

/-- From `st` to `st'` links are read, one behind the other, their operands by the parser `operand`.
-/
inductive ReadsLinks (operand : Parser Expr) (ctx : ParseContext) :
    List Link → ParseState → ParseState → Prop
  | nil {st : ParseState} : ReadsLinks operand ctx [] st st
  | cons {l : Link} {ls : List Link} {st st₁ st₂ st' : ParseState}
      (hop : Marks (.operator l.op) l.place st st₁) (hoperand : operand.Yields ctx st₁ l.operand st₂)
      (rest : ReadsLinks operand ctx ls st₂ st') : ReadsLinks operand ctx (l :: ls) st st'

/-- From `st` to `st'` a chain is read: an operand, and links. -/
def ReadsChain (operand : Parser Expr) (ctx : ParseContext) (first : Expr) (links : List Link)
    (st st' : ParseState) : Prop :=
  ∃ st₁, operand.Yields ctx st first st₁ ∧ ReadsLinks operand ctx links st₁ st'

section

variable {operand : Parser Expr} {ctx : ParseContext} {ls ls' : List Link} {st st₁ st' : ParseState}

theorem ReadsLinks.append (h : ReadsLinks operand ctx ls st st₁)
    (h' : ReadsLinks operand ctx ls' st₁ st') : ReadsLinks operand ctx (ls ++ ls') st st' := by
  induction h with
  | nil => exact h'
  | cons hop hoperand _ ih => exact .cons hop hoperand (ih h')

theorem ReadsLinks.split (h : ReadsLinks operand ctx (ls ++ ls') st st') :
    ∃ st₁, ReadsLinks operand ctx ls st st₁ ∧ ReadsLinks operand ctx ls' st₁ st' := by
  induction ls generalizing st with
  | nil => exact ⟨st, .nil, h⟩
  | cons l ls ih =>
    cases h with
    | cons hop hoperand rest =>
      obtain ⟨st₁, hls, hls'⟩ := ih rest
      exact ⟨st₁, .cons hop hoperand hls, hls'⟩

end

end Parser

namespace Grammar

open GoTrace.Parser

/-! ## One turn -/

/-- Reads one more operator, if it joins, and the operand behind it. -/
def joinStep (joins : Operator → Prop) [DecidablePred joins] (operand : Operator → Parser Expr)
    (x : Expr) : Parser (Turn Expr Expr) := do
  match ← peekOp? with
  | some op =>
    if joins op then
      let place ← takePlace
      return .goOn (.binary x place op (← operand op))
    else return .stop x
  | none => return .stop x

section

variable {joins : Operator → Prop} [DecidablePred joins] {operand : Operator → Parser Expr}
  {ctx : ParseContext} {x y : Expr} {st st' : ParseState}

/-- The loop goes on behind an operator that joins and an operand. -/
theorem yields_joinStep_goOn :
    (joinStep joins operand x).Yields ctx st (.goOn y) st' ↔
      ∃ place op right st₁, y = .binary x place op right ∧ joins op ∧
        Marks (.operator op) place st st₁ ∧ (operand op).Yields ctx st₁ right st' := by
  constructor
  · intro h
    obtain ⟨op?, st₀, hop, h⟩ := yields_bind.1 h
    obtain ⟨rfl, hnext⟩ := nextKind?_of_peekOp? hop
    cases op? with
    | none => cases (yields_pure.1 h).1
    | some op =>
      dsimp only at h
      split at h
      · rename_i hjoins
        obtain ⟨place, st₁, hplace, h⟩ := yields_bind.1 h
        obtain ⟨right, st₂, hright, h⟩ := yields_bind.1 h
        obtain ⟨heq, rfl⟩ := yields_pure.1 h
        obtain rfl := Turn.goOn.inj heq
        exact ⟨place, op, right, st₁, rfl, hjoins, marks_of_takePlace hplace (hnext rfl), hright⟩
      · cases (yields_pure.1 h).1
  · rintro ⟨place, op, right, st₁, rfl, hjoins, hmarks, hright⟩
    obtain ⟨t, ht, hkind, rfl⟩ := hmarks
    refine (yields_peek peeks_peekOp?).2 ?_
    rw [nextKind?_of_takes ht, hkind]
    dsimp only
    rw [if_pos hjoins]
    exact yields_bind.2 ⟨_, st₁, yields_takePlace_of_takes ht,
      yields_bind.2 ⟨right, st', hright, yields_pure.2 ⟨rfl, rfl⟩⟩⟩

/-- The loop stops in front of anything but an operator that joins. -/
theorem yields_joinStep_stop : (joinStep joins operand x).Yields ctx st (.stop y) st' ↔
    x = y ∧ st = st' ∧ ∀ op, st.nextKind? = some (.operator op) → ¬joins op := by
  rw [joinStep, yields_peek peeks_peekOp?]
  cases hnext : st.nextKind? with
  | none => simp [yields_pure]
  | some kind =>
    cases kind with
    | operator op =>
      dsimp only
      split
      · rename_i hjoins
        constructor
        · intro h
          obtain ⟨place, st₁, -, h⟩ := yields_bind.1 h
          obtain ⟨right, st₂, -, h⟩ := yields_bind.1 h
          cases (yields_pure.1 h).1
        · rintro ⟨-, -, hnot⟩
          exact absurd hjoins (hnot op rfl)
      · rename_i hnot
        simp [yields_pure, hnot]
    | _ => simp [yields_pure]

/-- A turn of the loop takes a token. -/
theorem localIf_joinStep (hoperand : ∀ op, joins op → (operand op).Local) (x : Expr) :
    (joinStep joins operand x).LocalIf Turn.goesOn := by
  refine local_peekOp?.bind fun op? => ?_
  cases op? with
  | none => exact localIf_pure id
  | some op =>
    dsimp only
    split
    · rename_i hjoins
      exact moves_takePlace.bind fun _ => (hoperand op hjoins).bind fun _ => local_pure
    · exact localIf_pure id

end

section

variable {precedence : Nat} {operand : Parser Expr} {ctx : ParseContext} {x y : Expr}
  {st st' : ParseState}

/-- The operators of a level join. -/
theorem binaryStep_eq :
    binaryStep precedence operand = joinStep (·.precedence = precedence) fun _ => operand := rfl

/-- The loop of a level goes on behind an operator of the level and an operand. -/
theorem yields_binaryStep_goOn :
    (binaryStep precedence operand x).Yields ctx st (.goOn y) st' ↔
      ∃ place op right st₁, y = .binary x place op right ∧ op.precedence = precedence ∧
        Marks (.operator op) place st st₁ ∧ operand.Yields ctx st₁ right st' :=
  yields_joinStep_goOn

/-- The loop of a level stops where there is no operator of the level. -/
theorem yields_binaryStep_stop (hprecedence : 0 < precedence) :
    (binaryStep precedence operand x).Yields ctx st (.stop y) st' ↔
      x = y ∧ st = st' ∧ st.nextPrecedence ≠ precedence := by
  rw [binaryStep_eq, yields_joinStep_stop]
  refine and_congr_right fun _ => and_congr_right fun _ => ?_
  unfold ParseState.nextPrecedence
  split
  · rename_i op hnext
    simp [hnext]
  · rename_i hnext
    exact ⟨fun _ => Nat.ne_of_lt hprecedence, fun _ op h => absurd h (hnext op)⟩

end

/-! ## All levels -/

/-- From `st` to `st'` the grouped tree `x` is read, of which all operators bind more tightly than
`bound` says, and none that does is next. -/
structure ReadsGrouped (operand : Parser Expr) (bound : Nat) (ctx : ParseContext) (st : ParseState)
    (x : Expr) (st' : ParseState) : Prop where
  grouped : x.Grouped
  tight : bound < x.tightness
  next : st'.nextPrecedence ≤ bound
  reads : ReadsChain operand ctx x.first x.links st st'

variable {rules : Nested} {operand : Parser Expr} {ctx : ParseContext} {x : Expr}
  {st st' : ParseState} {levels : Nat}

/-- A lone operand is a grouped tree of the tightest level. -/
theorem readsGrouped_operand_iff (hoperand : operand.Ensures (·.isBinary = false)) :
    ReadsGrouped operand 5 ctx st x st' ↔ operand.Yields ctx st x st' := by
  constructor
  · intro h
    rcases x.isBinary_or_eq with ⟨_, _, op, _, rfl⟩ | ⟨-, -, hfirst, hlinks, -⟩
    · exact absurd h.tight (Nat.not_lt.2 op.precedence_le)
    · obtain ⟨st₁, hx, hnil⟩ := h.reads
      rw [hfirst] at hx
      rw [hlinks] at hnil
      cases hnil
      exact hx
  · intro h
    have hx := hoperand h
    refine ⟨Expr.grouped_of_operand hx, ?_, st'.nextPrecedence_le, st', ?_, ?_⟩
    · rw [Expr.tightness_of_operand hx]
      exact Nat.lt_succ_self 5
    · rwa [Expr.first_of_operand hx]
    · rw [Expr.isBinary_iff_links.1 hx]
      exact .nil

/-- What a level returns is grouped, and reads the chain that it is the tree of. -/
theorem readsGrouped_of_yields (hoperand : rules.operand.Ensures (·.isBinary = false))
    (hlevels : levels ≤ 5) (h : (binary rules levels).Yields ctx st x st') :
    ReadsGrouped rules.operand (5 - levels) ctx st x st' := by
  induction levels generalizing x st st' with
  | zero => exact (readsGrouped_operand_iff hoperand).2 h
  | succ levels ih =>
    obtain ⟨x₀, st₀, hx₀, hloop⟩ := yields_bind.1 h
    have hx₀ := ih (Nat.le_of_succ_le hlevels) hx₀
    -- in front of each turn, the next operator may be one of this level
    refine invariant_of_iterate
      (P := fun y st₁ => y.Grouped ∧ 5 - (levels + 1) < y.tightness ∧
        st₁.nextPrecedence ≤ 5 - levels ∧ ReadsChain rules.operand ctx y.first y.links st st₁)
      (Q := fun y st₁ => ReadsGrouped rules.operand (5 - (levels + 1)) ctx st y st₁) ?_ ?_ ?_ hloop
    · rintro y st₁ y' st₂ ⟨hgrouped, htight, -, st₃, hfirst, hlinks⟩ hstep
      obtain ⟨place, op, right, st₄, rfl, hop, hmarks, hright⟩ := yields_binaryStep_goOn.1 hstep
      have hright := ih (Nat.le_of_succ_le hlevels) hright
      obtain ⟨st₅, hoperand', hlinks'⟩ := hright.reads
      have htight' := hright.tight
      refine ⟨⟨hgrouped, hright.grouped, by omega, by omega⟩, ?_, hright.next, st₃, hfirst, ?_⟩
      · rw [Expr.tightness, hop]
        omega
      · exact hlinks.append (.cons hmarks hoperand' hlinks')
    · rintro y st₁ y' st₂ ⟨hgrouped, htight, hnext, hreads⟩ hstep
      obtain ⟨rfl, rfl, hne⟩ := (yields_binaryStep_stop (by omega)).1 hstep
      exact ⟨hgrouped, htight, by omega, hreads⟩
    · have htight := hx₀.tight
      exact ⟨hx₀.grouped, by omega, hx₀.next, hx₀.reads⟩

/-- The tree of a level is made by the loop of the level, from a tree of the next tighter one. -/
theorem exists_loops (hlevels : levels < 5)
    (ih : ∀ {x st st'}, ReadsGrouped rules.operand (5 - levels) ctx st x st' →
      (binary rules levels).Yields ctx st x st')
    (hgrouped : x.Grouped) (htight : 5 - levels ≤ x.tightness)
    (hnext : st'.nextPrecedence ≤ 5 - levels)
    (hreads : ReadsChain rules.operand ctx x.first x.links st st') :
    ∃ n x₀ st₀, (binary rules levels).Yields ctx st x₀ st₀ ∧
      ∀ {m y st''}, Loops (binaryStep (5 - levels) (binary rules levels)) ctx m x st' y st'' →
        Loops (binaryStep (5 - levels) (binary rules levels)) ctx (n + m) x₀ st₀ y st'' := by
  -- a tree of the next tighter level is one that the loop begins with
  have tighter : ∀ {y st₁}, ReadsGrouped rules.operand (5 - levels) ctx st y st₁ →
      ∃ n x₀ st₀, (binary rules levels).Yields ctx st x₀ st₀ ∧
        ∀ {m z st''}, Loops (binaryStep (5 - levels) (binary rules levels)) ctx m y st₁ z st'' →
          Loops (binaryStep (5 - levels) (binary rules levels)) ctx (n + m) x₀ st₀ z st'' :=
    fun h => ⟨0, _, _, ih h, fun hloops => by rwa [Nat.zero_add]⟩
  induction x using Expr.first.induct generalizing st' with
  | case1 left place op right ihleft =>
    by_cases hlt : 5 - levels < op.precedence
    · exact tighter ⟨hgrouped, hlt, hnext, hreads⟩
    have hop : op.precedence = 5 - levels := Nat.le_antisymm (Nat.le_of_not_lt hlt) htight
    obtain ⟨hleft, hright, hle, hlt'⟩ := hgrouped
    obtain ⟨st₁, hfirst, hlinks⟩ := hreads
    obtain ⟨st₂, hlinksLeft, hlinksRight⟩ := hlinks.split
    cases hlinksRight with
    | @cons _ _ _ st₃ st₄ _ hmarks hoperand hlinksRight =>
      have hturn : (binaryStep (5 - levels) (binary rules levels) left).Yields ctx st₂
          (.goOn (.binary left place op right)) st' :=
        yields_binaryStep_goOn.2 ⟨place, op, right, st₃, rfl, hop, hmarks,
          ih ⟨hright, by omega, hnext, st₄, hoperand, hlinksRight⟩⟩
      have hnext' : st₂.nextPrecedence ≤ 5 - levels := by
        rw [hmarks.nextPrecedence]
        exact Nat.le_of_eq hop
      obtain ⟨n, x₀, st₀, hx₀, hloops⟩ :=
        ihleft hleft (by omega) hnext' ⟨st₁, hfirst, hlinksLeft⟩
      refine ⟨n + 1, x₀, st₀, hx₀, fun hrest => ?_⟩
      rw [Nat.add_assoc, Nat.add_comm 1]
      exact hloops (.goOn hturn hrest)
  | case2 x hx =>
    rcases x.isBinary_or_eq with ⟨_, _, _, _, rfl⟩ | ⟨-, htight', -⟩
    · exact absurd rfl (hx _ _ _ _)
    · exact tighter ⟨hgrouped, by omega, hnext, hreads⟩

/-- A grouped tree is returned by the level of its loosest operator, where its chain can be read. -/
theorem yields_of_readsGrouped (moving : rules.Moving)
    (hoperand : rules.operand.Ensures (·.isBinary = false)) (hlevels : levels ≤ 5)
    (h : ReadsGrouped rules.operand (5 - levels) ctx st x st') :
    (binary rules levels).Yields ctx st x st' := by
  induction levels generalizing x st st' with
  | zero => exact (readsGrouped_operand_iff hoperand).1 h
  | succ levels ih =>
    have htight := h.tight
    have hnext := h.next
    obtain ⟨n, x₀, st₀, hx₀, hloops⟩ := exists_loops hlevels (ih (Nat.le_of_succ_le hlevels))
      h.grouped (by omega) (by omega) h.reads
    have hstop : (binaryStep (5 - levels) (binary rules levels) x).Yields ctx st' (.stop x) st' :=
      (yields_binaryStep_stop (by omega)).2 ⟨rfl, rfl, by omega⟩
    -- each turn takes a token, so the loop does not run out of fuel
    obtain ⟨ts, hpasses, hn, -⟩ := (hloops (.stop hstop)).passes
      fun _ => localIf_binaryStep (moves_binary moving levels).local (5 - levels) id
    refine yields_bind.2 ⟨x₀, st₀, hx₀, yields_bind.2 ⟨st₀, st₀, yields_get.2 ⟨rfl, rfl⟩, ?_⟩⟩
    refine (hloops (.stop hstop)).yields ?_
    rw [hpasses.tokens, List.length_append]
    omega

/-- **A level returns the grouped tree of the chain that it reads**, and nothing else. -/
theorem yields_binary_iff (moving : rules.Moving)
    (hoperand : rules.operand.Ensures (·.isBinary = false)) (hlevels : levels ≤ 5) :
    (binary rules levels).Yields ctx st x st' ↔
      ReadsGrouped rules.operand (5 - levels) ctx st x st' :=
  ⟨readsGrouped_of_yields hoperand hlevels, yields_of_readsGrouped moving hoperand hlevels⟩

end Grammar

end GoTrace
