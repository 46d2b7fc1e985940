import GoTrace.Proofs.Grammar.Chains

/-!
# Precedence climbing

Binary operations can also be read without a rule for each level: behind an operand, as long as an
operator binds tightly enough, it is taken, and behind it what binds more tightly than it
(`Grammar.climb`). This reads the same trees as the levels do (`Grammar.yields_climb_iff_binary`), as
both return the grouped tree of the chain that they read.

The loop of a climb takes operators of all levels, so what bounds the next one is not the level but the
tree made so far: no operator that the loop takes binds more tightly than the tree in front of it.
-/

namespace GoTrace.Grammar

open GoTrace.Parser

/-- A climb takes the operators that bind at least as tightly as `least` says. -/
abbrev Reaches (least : Nat) (op : Operator) : Prop := 0 < op.precedence ∧ least ≤ op.precedence

/-- An expression whose binary operators bind at least as tightly as `least` says. Behind each operator
stands an expression whose operators bind more tightly. -/
def climb (operand : Parser Expr) (least : Nat) : Parser Expr := do
  let step (x : Expr) : Parser (Turn Expr Expr) := do
    match ← peekOp? with
    | some op =>
      if h : Reaches least op then
        let place ← takePlace
        return .goOn (.binary x place op (← climb operand (op.precedence + 1)))
      else return .stop x
    | none => return .stop x
  iterate step (← operand)
termination_by 6 - least
decreasing_by
  have := op.precedence_le
  omega

/-- A turn of the loop of a climb. -/
def climbStep (operand : Parser Expr) (least : Nat) : Expr → Parser (Turn Expr Expr) :=
  joinStep (Reaches least) fun op => climb operand (op.precedence + 1)

theorem climb_eq (operand : Parser Expr) (least : Nat) :
    climb operand least = operand >>= iterate (climbStep operand least) := by
  rw [climb]
  rfl

variable {operand : Parser Expr} {ctx : ParseContext} {x y : Expr} {st st' : ParseState}
  {least : Nat}

/-- A climb takes a token if an operand does. -/
theorem moves_climb (hmoves : operand.Moves) (least : Nat) : (climb operand least).Moves := by
  induction hroom : 6 - least using Nat.strongRecOn generalizing least with
  | ind room ih =>
  rw [climb_eq]
  refine hmoves.bind (local_iterate (localIf_joinStep fun op hop => ?_))
  have := op.precedence_le
  exact (ih (6 - (op.precedence + 1)) (by omega) _ rfl).local

/-- The loop of a climb stops in front of anything that binds less tightly than it has to. -/
theorem yields_climbStep_stop (hleast : 0 < least) :
    (climbStep operand least x).Yields ctx st (.stop y) st' ↔
      x = y ∧ st = st' ∧ st.nextPrecedence < least := by
  rw [climbStep, yields_joinStep_stop]
  refine and_congr_right fun _ => and_congr_right fun _ => ?_
  unfold ParseState.nextPrecedence Reaches
  split
  · rename_i op hnext
    simp only [hnext, Option.some.injEq, TokenKind.operator.injEq, forall_eq']
    omega
  · rename_i hnext
    exact ⟨fun _ => hleast, fun _ op h => absurd h (hnext op)⟩

/-- What a climb returns is grouped, and reads the chain that it is the tree of. -/
theorem readsGrouped_of_climb (hoperand : operand.Ensures (·.isBinary = false)) {bound : Nat}
    (hbound : bound ≤ 5) (h : (climb operand (bound + 1)).Yields ctx st x st') :
    ReadsGrouped operand bound ctx st x st' := by
  induction hroom : 5 - bound using Nat.strongRecOn generalizing bound x st st' with
  | ind room ih =>
  rw [climb_eq] at h
  obtain ⟨x₀, st₀, hx₀, hloop⟩ := yields_bind.1 h
  -- no operator that is next binds more tightly than the tree in front of it
  refine invariant_of_iterate
    (P := fun y st₁ => y.Grouped ∧ bound < y.tightness ∧ st₁.nextPrecedence ≤ y.tightness ∧
      ReadsChain operand ctx y.first y.links st st₁)
    (Q := fun y st₁ => ReadsGrouped operand bound ctx st y st₁) ?_ ?_ ?_ hloop
  · rintro y st₁ y' st₂ ⟨hgrouped, htight, hnext, st₃, hfirst, hlinks⟩ hstep
    obtain ⟨place, op, right, st₄, rfl, ⟨-, hop⟩, hmarks, hright⟩ := yields_joinStep_goOn.1 hstep
    have hle := op.precedence_le
    have hright := ih (5 - op.precedence) (by omega) hle hright rfl
    obtain ⟨st₅, hoperand', hlinks'⟩ := hright.reads
    rw [hmarks.nextPrecedence] at hnext
    exact ⟨⟨hgrouped, hright.grouped, hnext, hright.tight⟩, hop, hright.next, st₃, hfirst,
      hlinks.append (.cons hmarks hoperand' hlinks')⟩
  · rintro y st₁ y' st₂ ⟨hgrouped, htight, -, hreads⟩ hstep
    obtain ⟨rfl, rfl, hnext⟩ := (yields_climbStep_stop bound.succ_pos).1 hstep
    exact ⟨hgrouped, htight, Nat.le_of_lt_succ hnext, hreads⟩
  · obtain ⟨hgrouped, htight, -, hreads⟩ := (readsGrouped_operand_iff hoperand).2 hx₀
    refine ⟨hgrouped, Nat.lt_of_le_of_lt hbound htight, ?_, hreads⟩
    exact Nat.le_trans st₀.nextPrecedence_le (Nat.le_of_lt htight)

/-- A grouped tree is made by the loop of a climb, from the operand that its chain begins with. -/
theorem exists_loops_climb (hleast : 0 < least)
    (ih : ∀ {op x st st'}, Reaches least op → ReadsGrouped operand op.precedence ctx st x st' →
      (climb operand (op.precedence + 1)).Yields ctx st x st')
    (hgrouped : x.Grouped) (htight : least ≤ x.tightness)
    (hnext : st'.nextPrecedence ≤ x.tightness)
    (hreads : ReadsChain operand ctx x.first x.links st st') :
    ∃ n st₀, operand.Yields ctx st x.first st₀ ∧ ∀ {m y st''},
      Loops (climbStep operand least) ctx m x st' y st'' →
        Loops (climbStep operand least) ctx (n + m) x.first st₀ y st'' := by
  induction x using Expr.first.induct generalizing st' with
  | case1 left place op right ihleft =>
    obtain ⟨hleft, hright, hle, hlt⟩ := hgrouped
    obtain ⟨st₁, hfirst, hlinks⟩ := hreads
    obtain ⟨st₂, hlinksLeft, hlinksRight⟩ := hlinks.split
    cases hlinksRight with
    | @cons _ _ _ st₃ st₄ _ hmarks hoperand hlinksRight =>
      have hop : Reaches least op := ⟨Nat.lt_of_lt_of_le hleast htight, htight⟩
      have hturn : (climbStep operand least left).Yields ctx st₂
          (.goOn (.binary left place op right)) st' :=
        yields_joinStep_goOn.2 ⟨place, op, right, st₃, rfl, hop, hmarks,
          ih hop ⟨hright, hlt, hnext, st₄, hoperand, hlinksRight⟩⟩
      have hnext' : st₂.nextPrecedence ≤ left.tightness := by
        rw [hmarks.nextPrecedence]
        exact hle
      obtain ⟨n, st₀, hx₀, hloops⟩ :=
        ihleft hleft (Nat.le_trans htight hle) hnext' ⟨st₁, hfirst, hlinksLeft⟩
      refine ⟨n + 1, st₀, hx₀, fun hrest => ?_⟩
      rw [Nat.add_assoc, Nat.add_comm 1]
      exact hloops (.goOn hturn hrest)
  | case2 x hx =>
    rcases x.isBinary_or_eq with ⟨_, _, _, _, rfl⟩ | ⟨-, -, hfirst, hlinks, -⟩
    · exact absurd rfl (hx _ _ _ _)
    · obtain ⟨st₀, hx₀, hnil⟩ := hreads
      rw [hlinks] at hnil
      cases hnil
      refine ⟨0, st', hx₀, fun hrest => ?_⟩
      rwa [Nat.zero_add, hfirst]

/-- A grouped tree is returned by a climb that reaches its loosest operator, where its chain can be
read. -/
theorem climb_of_readsGrouped (hmoves : operand.Moves) {bound : Nat} (hbound : bound ≤ 5)
    (h : ReadsGrouped operand bound ctx st x st') :
    (climb operand (bound + 1)).Yields ctx st x st' := by
  induction hroom : 5 - bound using Nat.strongRecOn generalizing bound x st st' with
  | ind room ih =>
  obtain ⟨hgrouped, htight, hnext, hreads⟩ := h
  obtain ⟨n, st₀, hx₀, hloops⟩ := exists_loops_climb bound.succ_pos
    (fun {op _ _ _} ⟨_, hop⟩ h => ih (5 - op.precedence)
      (by have := op.precedence_le; omega) op.precedence_le h rfl)
    hgrouped htight (by omega) hreads
  have hstop : (climbStep operand (bound + 1) x).Yields ctx st' (.stop x) st' :=
    (yields_climbStep_stop bound.succ_pos).2 ⟨rfl, rfl, Nat.lt_succ_of_le hnext⟩
  -- each turn takes a token, so the loop does not run out of fuel
  obtain ⟨ts, hpasses, hn, -⟩ := (hloops (.stop hstop)).passes
    (localIf_joinStep fun op _ => (moves_climb hmoves (op.precedence + 1)).local)
  rw [climb_eq]
  refine yields_bind.2 ⟨x.first, st₀, hx₀, yields_bind.2 ⟨st₀, st₀, yields_get.2 ⟨rfl, rfl⟩, ?_⟩⟩
  refine (hloops (.stop hstop)).yields ?_
  rw [hpasses.tokens, List.length_append]
  omega

/-- **A climb reads what the levels do.** -/
theorem yields_climb_iff_binary {rules : Nested} {levels : Nat} (moving : rules.Moving)
    (hoperand : rules.operand.Ensures (·.isBinary = false)) (hlevels : levels ≤ 5) :
    (climb rules.operand (5 - levels + 1)).Yields ctx st x st' ↔
      (binary rules levels).Yields ctx st x st' :=
  ⟨fun h => yields_of_readsGrouped moving hoperand hlevels
      (readsGrouped_of_climb hoperand (Nat.sub_le 5 levels) h),
    fun h => climb_of_readsGrouped moving.operand (Nat.sub_le 5 levels)
      (readsGrouped_of_yields hoperand hlevels h)⟩

end GoTrace.Grammar
