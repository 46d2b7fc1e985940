import GoTrace.Proofs.Grammar.Yields

/-!
# Properties of what a parser returns

`Parser.Ensures` says that whatever a parser returns has a property, in every state and context. A
sequence ensures what its last part ensures of the values returned by the parts in front, a choice
what both its sides ensure, and a loop what its steps keep and ensure when they stop. So a property
of the trees that the grammar builds is proved rule by rule, without a word about tokens.
-/

namespace GoTrace.Parser

variable {α β σ : Type} {p : Parser α} {f : α → Parser β} {P Q : α → Prop} {R : β → Prop}

/-- Whatever the parser returns has the property. -/
def Ensures (p : Parser α) (P : α → Prop) : Prop :=
  ∀ ⦃ctx st a st'⦄, p.Yields ctx st a st' → P a

/-! ## Sequences and choices -/

theorem Ensures.mono (h : p.Ensures P) (hPQ : ∀ a, P a → Q a) : p.Ensures Q :=
  fun _ _ a _ hyields => hPQ a (h hyields)

theorem Ensures.and (h : p.Ensures P) (h' : p.Ensures Q) : p.Ensures fun a => P a ∧ Q a :=
  fun _ _ _ _ hyields => ⟨h hyields, h' hyields⟩

/-- A bound may be raised. -/
theorem Ensures.le {g : α → Nat} {m n : Nat} (h : p.Ensures (g · ≤ m)) (hmn : m ≤ n) :
    p.Ensures (g · ≤ n) := h.mono fun _ ha => Nat.le_trans ha hmn

theorem ensures_true : p.Ensures fun _ => True := fun _ _ _ _ _ => trivial

theorem ensures_pure {a : α} (h : P a) : (pure a : Parser α).Ensures P := by
  intro ctx st b st' hyields
  obtain ⟨rfl, -⟩ := yields_pure.1 hyields
  exact h

/-- A sequence ensures what its second part ensures of values with the property of the first. -/
theorem Ensures.bind (h : p.Ensures P) (hf : ∀ a, P a → (f a).Ensures R) : (p >>= f).Ensures R := by
  intro ctx st b st' hyields
  obtain ⟨a, _, ha, hb⟩ := yields_bind.1 hyields
  exact hf a (h ha) hb

/-- A sequence ensures what its second part ensures, whatever the first returns. -/
theorem ensures_bind (hf : ∀ a, (f a).Ensures R) : (p >>= f).Ensures R := by
  intro ctx st b st' hyields
  obtain ⟨a, _, -, hb⟩ := yields_bind.1 hyields
  exact hf a hb

theorem Ensures.map {g : α → β} (h : p.Ensures fun a => R (g a)) : (g <$> p).Ensures R := by
  intro ctx st b st' hyields
  obtain ⟨a, ha, rfl⟩ := yields_map.1 hyields
  exact h ha

theorem Ensures.ite {c : Prop} [Decidable c] {q : Parser α} (h : p.Ensures P) (h' : q.Ensures P) :
    (if c then p else q).Ensures P := by
  split
  · exact h
  · exact h'

/-- A choice in front of a parser ensures what the parser ensures of values with a property that both
sides ensure. -/
theorem ensures_ite_bind {c : Prop} [Decidable c] {q : Parser α} (h : p.Ensures P)
    (h' : q.Ensures P) (hf : ∀ a, P a → (f a).Ensures R) :
    (if c then p >>= f else q >>= f).Ensures R := .ite (h.bind hf) (h'.bind hf)

/-- What is read if it is there has the property of what is read. -/
theorem Ensures.some (h : p.Ensures P) : (some <$> p).Ensures fun a? => ∀ a ∈ a?, P a :=
  (h.mono fun _ ha => by simpa using ha).map

theorem Ensures.withLiterals {allowed : Bool} (h : p.Ensures P) :
    (withLiterals allowed p).Ensures P :=
  fun _ _ _ _ hyields => h (yields_withLiterals.1 hyields)

/-! ## Failing -/

theorem ensures_failAt {span : Span} {fault : ParseFault} :
    (failAt span fault : Parser α).Ensures P :=
  fun _ _ _ _ hyields => absurd hyields not_yields_failAt

theorem ensures_failHere {fault : ParseFault} : (failHere fault : Parser α).Ensures P :=
  fun _ _ _ _ hyields => absurd hyields not_yields_failHere

theorem ensures_unexpected {expected : Expectation} :
    (unexpected expected : Parser α).Ensures P :=
  fun _ _ _ _ hyields => absurd hyields not_yields_unexpected

theorem ensures_fromExcept {x : Except ParseError α} (h : ∀ a, x = .ok a → P a) :
    (fromExcept x).Ensures P :=
  fun _ _ a _ hyields => h a (yields_fromExcept hyields).1

/-! ## Loops -/

/-- A loop that goes on does so with the one property, and a loop that stops has the other. -/
def Turn.Keeps (P : σ → Prop) (R : β → Prop) : Turn σ β → Prop
  | .goOn s => P s
  | .stop b => R b

/-- A loop ensures what its steps ensure when they stop, given what they keep when they go on. -/
theorem ensures_iterate {step : σ → Parser (Turn σ β)} {P : σ → Prop} {s : σ} (hs : P s)
    (hstep : ∀ s, P s → (step s).Ensures (Turn.Keeps P R)) : (iterate step s).Ensures R :=
  fun _ _ _ _ hyields =>
    invariant_of_iterate (P := fun s _ => P s) (Q := fun b _ => R b)
      (fun hs hgoOn => hstep _ hs hgoOn) (fun hs hstop => hstep _ hs hstop) hs hyields

theorem ensures_collect {done : Parser Bool} {item : Parser (α × Bool)}
    (h : item.Ensures fun x => P x.1) : (collect done item).Ensures fun xs => ∀ x ∈ xs, P x := by
  intro ctx st xs st' hyields
  replace hyields := collected_of_collect hyields
  induction hyields with
  | done _ => exact List.forall_mem_nil P
  | last _ hitem => exact List.forall_mem_singleton.2 (h hitem)
  | next _ hitem _ ih => exact List.forall_mem_cons.2 ⟨h hitem, ih⟩

theorem ensures_many {done : Parser Bool} {item : Parser α} (h : item.Ensures P) :
    (many done item).Ensures fun xs => ∀ x ∈ xs, P x :=
  ensures_collect (h.bind fun _ hx => ensures_pure hx)

theorem ensures_commaSeparated {item : Parser α} (h : item.Ensures P) :
    (commaSeparated item).Ensures fun xs => ∀ x ∈ xs.1, P x := by
  have hrest : (do let comma ← takePlace; return (comma, ← item)).Ensures
      fun x : Offset × α => P x.2 :=
    ensures_bind fun _ => h.bind fun _ hx => ensures_pure hx
  refine h.bind fun first hfirst => (ensures_many hrest).bind fun rest hrest => ensures_pure ?_
  exact List.forall_mem_cons.2 ⟨hfirst, List.forall_mem_map.2 hrest⟩

/-- There is one comma less than there are items. -/
theorem length_commaSeparated {item : Parser α} :
    (commaSeparated item).Ensures fun xs => xs.1.length = xs.2.length + 1 :=
  ensures_bind fun _ => ensures_bind fun _ => ensures_pure (by simp)

end GoTrace.Parser
