import GoTrace.Proofs.Grammar.Ensures
import GoTrace.Proofs.Grammar.LocalRules

/-!
# Properties of what a parser returns among tokens

Some properties of a tree are about the tokens that it is read from, and depend on whether composite
literals were allowed. `Parser.EnsuresIn` is `Parser.Ensures` for these: it fixes a list of tokens, of
which the parser is given the last ones, and says what is allowed. `Parser.EnsuresAt` says in addition
something of the tokens that are left.

Behind the first part of a sequence the last of the same tokens have to be left. Rules whose results
have a property leave them by what is proved of them; those that only look ahead or take a token are
instances of `Parser.Onward`.
-/

namespace GoTrace.Parser

variable {α β σ : Type}

/-! ## What is left -/

/-- Of the tokens that it is given, the parser leaves the last ones. -/
class Onward (p : Parser α) : Prop where
  suffix : ∀ {ctx st a st'}, p.Yields ctx st a st' → st'.tokens <:+ st.tokens

/-- What is taken off the front leaves the last tokens. -/
theorem LocalIf.onward {p : Parser α} {moved : α → Prop} (h : p.LocalIf moved) : p.Onward where
  suffix := by
    intro ctx st a st' hyields
    obtain ⟨ts, hts, -, -⟩ := h st hyields
    rw [hts.tokens]
    exact List.suffix_append ts _

/-- A look ahead leaves all tokens. -/
theorem Peeks.onward {p : Parser α} {v : ParseState → α} (h : p.Peeks v) : p.Onward where
  suffix := by
    intro ctx st a st' hyields
    obtain ⟨-, rfl⟩ := (yields_of_peeks h).1 hyields
    exact List.suffix_refl _

instance : peekKind?.Onward := peeks_peekKind?.onward

instance : peekSecondKind?.Onward := peeks_peekSecondKind?.onward

instance : peekOp?.Onward := peeks_peekOp?.onward

instance : peekKeyword?.Onward := peeks_peekKeyword?.onward

instance : peekSpan.Onward := peeks_peekSpan.onward

instance (op : Operator) : (nextIsOp op).Onward := (peeks_nextIsOp op).onward

instance (word : Keyword) : (nextIsKeyword word).Onward := (peeks_nextIsKeyword word).onward

instance : nextIsIdent.Onward := peeks_nextIsIdent.onward

instance : nextIsString.Onward := peeks_nextIsString.onward

instance : nextIsWrittenSemicolon.Onward := peeks_nextIsWrittenSemicolon.onward

instance : atEnd.Onward := peeks_atEnd.onward

instance : (read : Parser ParseContext).Onward := local_read.onward

instance : (get : Parser ParseState).Onward where
  suffix := by
    intro ctx st a st' hyields
    obtain ⟨-, rfl⟩ := yields_get.1 hyields
    exact List.suffix_refl _

instance : take.Onward := moves_take.onward

instance : takePlace.Onward := moves_takePlace.onward

instance (op : Operator) : (takeOp? op).Onward := (local_takeOp? op).onward

instance (op : Operator) : (expectOp op).Onward := (moves_expectOp op).onward

instance (word : Keyword) : (expectKeyword word).Onward := (moves_expectKeyword word).onward

instance : expectWrittenSemicolon.Onward := moves_expectWrittenSemicolon.onward

instance : expectIdent.Onward := moves_expectIdent.onward

instance : expectLiteral.Onward := moves_expectLiteral.onward

instance (close : Operator) : (endOfLine close).Onward := (local_endOfLine close).onward

instance : endOfDecl.Onward := local_endOfDecl.onward

instance : Grammar.tag?.Onward := Grammar.local_tag?.onward

instance : Grammar.importName?.Onward := Grammar.local_importName?.onward

instance (x : Except ParseError α) : (fromExcept x).Onward := local_fromExcept.onward

instance (a : α) : (pure a : Parser α).Onward := local_pure.onward

instance : (commaSeparated expectIdent).Onward := (moves_commaSeparated moves_expectIdent).onward

instance {p : Parser α} {f : α → Parser β} [p.Onward] [∀ a, (f a).Onward] :
    (p >>= f).Onward where
  suffix := by
    intro ctx st b st' hyields
    obtain ⟨a, st₁, hp, hf⟩ := yields_bind.1 hyields
    exact (Onward.suffix hf).trans (Onward.suffix hp)

/-! ## The judgment -/

variable {ts : List Token} {allowed : Bool} {p : Parser α} {f : α → Parser β} {P Q : α → Prop}
  {R : β → Prop} {S : β → List Token → Prop}

/-- With literals allowed or not, whatever the parser returns has the property together with what it
leaves. It leaves the last of some tokens if it is given the last of them. -/
def EnsuresAt (ts : List Token) (allowed : Bool) (p : Parser α) (P : α → List Token → Prop) : Prop :=
  ∀ ⦃st a st'⦄, st.tokens <:+ ts → p.Yields ⟨allowed⟩ st a st' →
    st'.tokens <:+ ts ∧ P a st'.tokens

/-- The same for a property of what is returned. -/
abbrev EnsuresIn (ts : List Token) (allowed : Bool) (p : Parser α) (P : α → Prop) : Prop :=
  p.EnsuresAt ts allowed fun a _ => P a

/-! ## Sequences and choices -/

theorem EnsuresAt.mono {P Q : α → List Token → Prop} (h : p.EnsuresAt ts allowed P)
    (hPQ : ∀ a rest, P a rest → Q a rest) : p.EnsuresAt ts allowed Q :=
  fun _ a st' htokens hyields =>
    ⟨(h htokens hyields).1, hPQ a st'.tokens (h htokens hyields).2⟩

theorem EnsuresIn.mono (h : p.EnsuresIn ts allowed P) (hPQ : ∀ a, P a → Q a) :
    p.EnsuresIn ts allowed Q :=
  EnsuresAt.mono h fun a _ => hPQ a

theorem ensuresIn_true [p.Onward] : p.EnsuresIn ts allowed fun _ => True :=
  fun _ _ _ htokens hyields => ⟨(Onward.suffix hyields).trans htokens, trivial⟩

theorem ensuresAt_pure {P : α → List Token → Prop} {a : α} (h : ∀ rest, P a rest) :
    (pure a : Parser α).EnsuresAt ts allowed P := by
  intro st b st' htokens hyields
  obtain ⟨rfl, rfl⟩ := yields_pure.1 hyields
  exact ⟨htokens, h st.tokens⟩

theorem ensuresIn_pure {a : α} (h : P a) : (pure a : Parser α).EnsuresIn ts allowed P :=
  ensuresAt_pure fun _ => h

/-- A sequence ensures what its second part ensures of values with the property of the first. -/
theorem EnsuresIn.bind (h : p.EnsuresIn ts allowed P)
    (hf : ∀ a, P a → (f a).EnsuresAt ts allowed S) : (p >>= f).EnsuresAt ts allowed S := by
  intro st b st' htokens hyields
  obtain ⟨a, st₁, ha, hb⟩ := yields_bind.1 hyields
  obtain ⟨htokens₁, hPa⟩ := h htokens ha
  exact hf a hPa htokens₁ hb

/-- A sequence ensures what its second part ensures, whatever the first returns. -/
theorem ensuresIn_bind [p.Onward] (hf : ∀ a, (f a).EnsuresAt ts allowed S) :
    (p >>= f).EnsuresAt ts allowed S :=
  ensuresIn_true.bind fun a _ => hf a

/-- A function of what a parser returns leaves what the parser leaves. -/
theorem EnsuresAt.bind_pure {P : α → List Token → Prop} {g : α → β}
    (h : p.EnsuresAt ts allowed P) (hg : ∀ a rest, P a rest → S (g a) rest) :
    (p >>= fun a => pure (g a)).EnsuresAt ts allowed S := by
  intro st b st' htokens hyields
  obtain ⟨a, st₁, ha, hb⟩ := yields_bind.1 hyields
  obtain ⟨rfl, rfl⟩ := yields_pure.1 hb
  exact ⟨(h htokens ha).1, hg a _ (h htokens ha).2⟩

theorem EnsuresAt.ite {P : α → List Token → Prop} {c : Prop} [Decidable c] {q : Parser α}
    (h : p.EnsuresAt ts allowed P) (h' : q.EnsuresAt ts allowed P) :
    (if c then p else q).EnsuresAt ts allowed P := by
  split
  · exact h
  · exact h'

/-- A choice in front of a parser ensures what the parser ensures of values with a property that both
sides ensure. -/
theorem ensuresIn_ite_bind {c : Prop} [Decidable c] {q : Parser α}
    (h : p.EnsuresIn ts allowed P) (h' : q.EnsuresIn ts allowed P)
    (hf : ∀ a, P a → (f a).EnsuresAt ts allowed S) :
    (if c then p >>= f else q >>= f).EnsuresAt ts allowed S := .ite (h.bind hf) (h'.bind hf)

/-- What is read if it is there has the property of what is read. -/
theorem EnsuresIn.some (h : p.EnsuresIn ts allowed P) :
    (some <$> p).EnsuresIn ts allowed fun a? => ∀ a ∈ a?, P a := by
  intro st a? st' htokens hyields
  obtain ⟨a, ha, rfl⟩ := yields_map.1 hyields
  obtain ⟨htokens', hPa⟩ := h htokens ha
  exact ⟨htokens', by simpa using hPa⟩

instance [p.Onward] {g : α → β} : (g <$> p).Onward where
  suffix := by
    intro ctx st b st' hyields
    obtain ⟨a, ha, rfl⟩ := yields_map.1 hyields
    exact Onward.suffix ha

theorem EnsuresAt.withLiterals {P : α → List Token → Prop} {allowed' : Bool}
    (h : p.EnsuresAt ts allowed' P) : (withLiterals allowed' p).EnsuresAt ts allowed P :=
  fun _ _ _ htokens hyields => h htokens (yields_withLiterals.1 hyields)

/-! ## Taking tokens -/

/-- A name that is read is the token in front of what is left. -/
theorem ensuresAt_expectIdent : expectIdent.EnsuresAt ts allowed fun name rest =>
    ∃ t, t :: rest <:+ ts ∧ t.kind = .ident name.name ∧ t.span.start = name.place := by
  intro st name st' htokens hyields
  obtain ⟨t, ht, hkind, hplace⟩ := marks_of_expectIdent hyields
  rw [ht.tokens] at htokens
  exact ⟨(List.suffix_cons t _).trans htokens, t, htokens, hkind, hplace⟩

/-- An operator that is expected is the token in front of what is left. -/
theorem ensuresAt_expectOp (op : Operator) : (expectOp op).EnsuresAt ts allowed fun place rest =>
    ∃ t, t :: rest <:+ ts ∧ t.kind = .operator op ∧ t.span.start = place := by
  intro st place st' htokens hyields
  obtain ⟨t, ht, hkind, hplace⟩ := marks_of_expectOp hyields
  rw [ht.tokens] at htokens
  exact ⟨(List.suffix_cons t _).trans htokens, t, htokens, hkind, hplace⟩

/-! ## Failing -/

theorem ensuresAt_of_not_yields {P : α → List Token → Prop}
    (h : ∀ {ctx st a st'}, ¬p.Yields ctx st a st') : p.EnsuresAt ts allowed P :=
  fun _ _ _ _ hyields => absurd hyields h

theorem ensuresIn_failAt {P : α → List Token → Prop} {span : Span} {fault : ParseFault} :
    (failAt span fault : Parser α).EnsuresAt ts allowed P :=
  ensuresAt_of_not_yields not_yields_failAt

theorem ensuresIn_failHere {P : α → List Token → Prop} {fault : ParseFault} :
    (failHere fault : Parser α).EnsuresAt ts allowed P :=
  ensuresAt_of_not_yields not_yields_failHere

theorem ensuresIn_unexpected {P : α → List Token → Prop} {expected : Expectation} :
    (unexpected expected : Parser α).EnsuresAt ts allowed P :=
  ensuresAt_of_not_yields not_yields_unexpected

theorem ensuresIn_fromExcept {x : Except ParseError α} (h : ∀ a, x = .ok a → P a) :
    (fromExcept x).EnsuresIn ts allowed P := by
  intro st a st' htokens hyields
  obtain ⟨ha, rfl⟩ := yields_fromExcept hyields
  exact ⟨htokens, h a ha⟩

/-! ## Loops -/

/-- A loop ensures what its steps ensure when they stop, given what they keep when they go on. -/
theorem ensuresAt_iterate {step : σ → Parser (Turn σ β)} {P : σ → List Token → Prop}
    (hstep : ∀ {s st turn st'}, st.tokens <:+ ts → P s st.tokens →
      (step s).Yields ⟨allowed⟩ st turn st' →
      st'.tokens <:+ ts ∧ turn.Keeps (P · st'.tokens) (S · st'.tokens))
    {s : σ} {st : ParseState} {b : β} {st' : ParseState} (htokens : st.tokens <:+ ts)
    (hs : P s st.tokens) (h : (iterate step s).Yields ⟨allowed⟩ st b st') :
    st'.tokens <:+ ts ∧ S b st'.tokens :=
  invariant_of_iterate (P := fun s st => st.tokens <:+ ts ∧ P s st.tokens)
    (Q := fun b st => st.tokens <:+ ts ∧ S b st.tokens)
    (fun ⟨htokens, hs⟩ hgoOn => hstep htokens hs hgoOn)
    (fun ⟨htokens, hs⟩ hstop => hstep htokens hs hstop) ⟨htokens, hs⟩ h

/-- The same for properties of values. -/
theorem ensuresIn_iterate {step : σ → Parser (Turn σ β)} {P : σ → Prop} {s : σ} (hs : P s)
    (hstep : ∀ s, P s → (step s).EnsuresIn ts allowed (Turn.Keeps P R)) :
    (iterate step s).EnsuresIn ts allowed R :=
  fun _ _ _ htokens hyields =>
    ensuresAt_iterate (P := fun s _ => P s) (S := fun b _ => R b)
      (fun htokens hs hturn => hstep _ hs htokens hturn) htokens hs hyields

theorem ensuresIn_collect {done : Parser Bool} [done.Onward] {item : Parser (α × Bool)}
    (h : item.EnsuresIn ts allowed fun x => P x.1) :
    (collect done item).EnsuresIn ts allowed fun xs => ∀ x ∈ xs, P x := by
  intro st xs st' htokens hyields
  replace hyields := collected_of_collect hyields
  induction hyields with
  | done hdone => exact ⟨(Onward.suffix hdone).trans htokens, List.forall_mem_nil P⟩
  | last hdone hitem =>
    obtain ⟨htokens', hx⟩ := h ((Onward.suffix hdone).trans htokens) hitem
    exact ⟨htokens', List.forall_mem_singleton.2 hx⟩
  | next hdone hitem _ ih =>
    obtain ⟨htokens', hx⟩ := h ((Onward.suffix hdone).trans htokens) hitem
    obtain ⟨htokens'', hxs⟩ := ih htokens'
    exact ⟨htokens'', List.forall_mem_cons.2 ⟨hx, hxs⟩⟩

theorem ensuresIn_many {done : Parser Bool} [done.Onward] {item : Parser α}
    (h : item.EnsuresIn ts allowed P) :
    (many done item).EnsuresIn ts allowed fun xs => ∀ x ∈ xs, P x :=
  ensuresIn_collect (h.bind fun _ hx => ensuresIn_pure hx)

theorem ensuresIn_commaSeparated {item : Parser α} (h : item.EnsuresIn ts allowed P) :
    (commaSeparated item).EnsuresIn ts allowed fun xs => ∀ x ∈ xs.1, P x := by
  have hrest : (do let comma ← takePlace; return (comma, ← item)).EnsuresIn ts allowed
      fun x : Offset × α => P x.2 :=
    ensuresIn_bind fun _ => h.bind fun _ hx => ensuresIn_pure hx
  refine h.bind fun first hfirst => EnsuresIn.bind (ensuresIn_many hrest) fun rest hrest => ?_
  exact ensuresIn_pure (List.forall_mem_cons.2 ⟨hfirst, List.forall_mem_map.2 hrest⟩)

end GoTrace.Parser
