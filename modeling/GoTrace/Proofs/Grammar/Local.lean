import GoTrace.Proofs.Grammar.Yields

/-!
# Parsers do not look behind what they read

The rules of the grammar look at most one token beyond those they take, and at two only behind a
name or an arrow. So a rule that succeeds in front of a token that is not written, an implicit
semicolon or the end of the text, succeeds in the same way whatever stands behind that token, and
whatever was read before it. `Parser.Local` says so of a parser, `Parser.Moves` that it takes a
token in addition, and both are kept by sequences and choices.

A loop is local because each of its steps takes a token (`Parser.local_iterate`): its fuel is the
number of tokens that are left, which differs between two readings, but neither uses it up.
-/

namespace GoTrace

/-- Two lists of tokens are the same up to a token that is not written; what is behind it may
differ. -/
inductive Agree : List Token → List Token → Prop
  | stop {t : Token} {ts us : List Token} (h : t.kind.isWritten = false) : Agree (t :: ts) (t :: us)
  | cons {t : Token} {ts us : List Token} (h : Agree ts us) : Agree (t :: ts) (t :: us)

section

variable {st st₀ st₀' st' : ParseState} {ts us : List Token}

/-- The same tokens in front make no difference. -/
theorem Agree.append (h : Agree ts us) (front : List Token) : Agree (front ++ ts) (front ++ us) := by
  induction front with
  | nil => exact h
  | cons t front ih => exact .cons ih

/-- The first tokens are the same. -/
theorem Agree.head?_eq (h : Agree ts us) : ts.head? = us.head? := by
  cases h <;> rfl

/-- There is a token up to which they are the same. -/
theorem Agree.ne_nil (h : Agree ts us) : us ≠ [] := by
  cases h <;> exact List.cons_ne_nil _ _

/-- Behind a token that is written, the next tokens are the same. -/
theorem Agree.second_eq (h : Agree ts us) (hwritten : ∀ t ∈ ts.head?, t.kind.isWritten) :
    ts[1]? = us[1]? := by
  cases h with
  | stop h =>
    rw [hwritten _ rfl] at h
    cases h
  | @cons t ts us h =>
    rw [List.getElem?_cons_succ, List.getElem?_cons_succ, ← List.head?_eq_getElem?,
      ← List.head?_eq_getElem?]
    exact h.head?_eq

/-- States from which the same tokens are taken agree if those behind do. -/
theorem Passes.agree (h : Passes st ts st') (h₀ : Passes st₀ ts st₀')
    (hagree : Agree st'.tokens st₀'.tokens) : Agree st.tokens st₀.tokens := by
  rw [h.tokens, h₀.tokens]
  exact hagree.append ts

end

namespace Parser

variable {α β σ : Type}

/-- What a parser yields in the state `st` depends on no token behind the next one that is not
written, nor on what was taken before. If what it yields is `moved`, a token is taken. -/
def LocalAt (moved : α → Prop) (p : Parser α) (st : ParseState) : Prop :=
  ∀ ⦃ctx a st'⦄, p.Yields ctx st a st' → ∃ ts, Passes st ts st' ∧ (moved a → ts ≠ []) ∧
    ∀ ⦃st₀ st₀'⦄, Passes st₀ ts st₀' → Agree st'.tokens st₀'.tokens → p.Yields ctx st₀ a st₀'

/-- The same in all states. -/
def LocalIf (moved : α → Prop) (p : Parser α) : Prop := ∀ st, p.LocalAt moved st

/-- What a parser yields depends on no token behind the next one that is not written, nor on what
was taken before. -/
def Local (p : Parser α) : Prop := p.LocalIf fun _ => False

/-- A parser is local and takes a token. -/
def Moves (p : Parser α) : Prop := p.LocalIf fun _ => True

variable {p : Parser α} {f : α → Parser β} {moved : α → Prop} {moved' : β → Prop}

/-- A parser that takes a token takes one in any case. -/
theorem Moves.localIf (h : p.Moves) : p.LocalIf moved := by
  intro st ctx a st' hyields
  obtain ⟨ts, hts, hmoved, hagain⟩ := h st hyields
  exact ⟨ts, hts, fun _ => hmoved trivial, hagain⟩

/-- A parser that takes a token is local. -/
theorem Moves.local (h : p.Moves) : p.Local := h.localIf

/-! ## Sequences and choices -/

/-- A sequence takes what its first part takes, and then what its second part takes. -/
theorem localIf_bind {first : Prop} {second both : β → Prop} (hp : p.LocalIf fun _ => first)
    (hf : ∀ a, (f a).LocalIf second) (h : ∀ b, both b → first ∨ second b) :
    (p >>= f).LocalIf both := by
  intro st ctx b st' hyields
  obtain ⟨a, st₁, hfirst, hsecond⟩ := yields_bind.1 hyields
  obtain ⟨ts, hts, hmoved, hagain⟩ := hp st hfirst
  obtain ⟨us, hus, hmoved', hagain'⟩ := hf a st₁ hsecond
  refine ⟨ts ++ us, hts.append hus, fun hb => ?_, fun st₀ st₀' hpasses hagree => ?_⟩
  · rcases h b hb with hb | hb
    · exact List.append_ne_nil_of_left_ne_nil (hmoved hb) us
    · exact List.append_ne_nil_of_right_ne_nil ts (hmoved' hb)
  · obtain ⟨st₂, hts₂, hus₂⟩ := hpasses.split
    exact yields_bind.2 ⟨a, st₂, hagain hts₂ (hus.agree hus₂ hagree), hagain' hus₂ hagree⟩

/-- A sequence of local parsers is local. -/
theorem Local.bind (hp : p.Local) (hf : ∀ a, (f a).LocalIf moved') : (p >>= f).LocalIf moved' :=
  localIf_bind hp hf fun _ => .inr

/-- A sequence takes a token if its first part does. -/
theorem Moves.bind (hp : p.Moves) (hf : ∀ a, (f a).Local) : (p >>= f).LocalIf moved' :=
  localIf_bind hp hf fun _ _ => .inl trivial

/-- A function of what a parser yields. -/
private theorem localIf_map {g : α → β} (hp : p.LocalIf fun a => moved' (g a)) :
    (g <$> p).LocalIf moved' := by
  intro st ctx b st' hyields
  obtain ⟨a, ha, rfl⟩ := yields_map.1 hyields
  obtain ⟨ts, hts, hmoved, hagain⟩ := hp st ha
  exact ⟨ts, hts, hmoved, fun st₀ st₀' hpasses hagree =>
    yields_map.2 ⟨a, hagain hpasses hagree, rfl⟩⟩

theorem Moves.map {g : α → β} (hp : p.Moves) : (g <$> p).Moves := localIf_map hp

/-- Returning a value takes no token. -/
theorem localIf_pure {a : α} (h : ¬moved a) : (pure a : Parser α).LocalIf moved := by
  intro st ctx b st' hyields
  obtain ⟨rfl, rfl⟩ := yields_pure.1 hyields
  refine ⟨[], .nil, fun hmoved => absurd hmoved h, fun st₀ st₀' hpasses _ => ?_⟩
  cases hpasses
  exact yields_pure.2 ⟨rfl, rfl⟩

theorem local_pure {a : α} : (pure a : Parser α).Local := localIf_pure id

/-- A parser that yields nothing is local. -/
theorem localIf_of_not_yields (h : ∀ {ctx st a st'}, ¬p.Yields ctx st a st') : p.LocalIf moved :=
  fun _ _ _ _ hyields => absurd hyields h

/-- A look ahead is local if what it sees is the same in states that agree. -/
theorem Peeks.local {v : ParseState → α} (h : p.Peeks v)
    (hv : ∀ {st st₀ : ParseState}, Agree st.tokens st₀.tokens → v st = v st₀) : p.Local := by
  intro st ctx a st' hyields
  obtain ⟨rfl, rfl⟩ := (yields_of_peeks h).1 hyields
  refine ⟨[], .nil, False.elim, fun st₀ st₀' hpasses hagree => ?_⟩
  cases hpasses
  exact (yields_of_peeks h).2 ⟨(hv hagree).symm, rfl⟩

/-- A choice is local if its parts are. -/
theorem LocalIf.ite {c : Prop} [Decidable c] {q : Parser α} (hp : p.LocalIf moved)
    (hq : q.LocalIf moved) : (if c then p else q).LocalIf moved := by
  split
  · exact hp
  · exact hq

/-- It does not matter whether literals are allowed. -/
private theorem localIf_withLiterals {allowed : Bool} (h : p.LocalIf moved) :
    (withLiterals allowed p).LocalIf moved := by
  intro st ctx a st' hyields
  obtain ⟨ts, hts, hmoved, hagain⟩ := h st (yields_withLiterals.1 hyields)
  exact ⟨ts, hts, hmoved, fun st₀ st₀' hpasses hagree =>
    yields_withLiterals.2 (hagain hpasses hagree)⟩

theorem Local.withLiterals {allowed : Bool} (h : p.Local) : (withLiterals allowed p).Local :=
  localIf_withLiterals h

theorem Moves.withLiterals {allowed : Bool} (h : p.Moves) : (withLiterals allowed p).Moves :=
  localIf_withLiterals h

/-! ## Looking ahead -/

/-- States that agree have the same kind of token next. -/
theorem nextKind?_of_agree {st st₀ : ParseState} (h : Agree st.tokens st₀.tokens) :
    st.nextKind? = st₀.nextKind? := by
  rw [ParseState.nextKind?, ParseState.nextKind?, h.head?_eq]

theorem local_peekKind? : peekKind?.Local := peeks_peekKind?.local nextKind?_of_agree

theorem local_nextIsOp (op : Operator) : (nextIsOp op).Local :=
  (peeks_nextIsOp op).local fun h => by rw [nextKind?_of_agree h]

theorem local_nextIsKeyword (word : Keyword) : (nextIsKeyword word).Local :=
  (peeks_nextIsKeyword word).local fun h => by rw [nextKind?_of_agree h]

theorem local_nextIsWrittenSemicolon : nextIsWrittenSemicolon.Local :=
  peeks_nextIsWrittenSemicolon.local fun h => by rw [nextKind?_of_agree h]

theorem local_atEnd : atEnd.Local := peeks_atEnd.local fun h => by rw [nextKind?_of_agree h]

theorem local_peekOp? : peekOp?.Local := peeks_peekOp?.local fun h => by rw [nextKind?_of_agree h]

theorem local_peekKeyword? : peekKeyword?.Local :=
  peeks_peekKeyword?.local fun h => by rw [nextKind?_of_agree h]

theorem local_nextIsIdent : nextIsIdent.Local :=
  peeks_nextIsIdent.local fun h => by rw [nextKind?_of_agree h]

theorem local_nextIsString : nextIsString.Local :=
  peeks_nextIsString.local fun h => by rw [nextKind?_of_agree h]

/-- The span of the next token is seen, as there is one in states that agree. -/
theorem local_peekSpan : peekSpan.Local := by
  refine peeks_peekSpan.local fun {st st₀} h => ?_
  rw [h.head?_eq]
  cases htokens : st₀.tokens with
  | nil => exact absurd htokens h.ne_nil
  | cons t ts => rfl

theorem local_read : (read : Parser ParseContext).Local := by
  intro st ctx a st' hyields
  obtain ⟨rfl, rfl⟩ := yields_read.1 hyields
  refine ⟨[], .nil, False.elim, fun st₀ st₀' hpasses _ => ?_⟩
  cases hpasses
  exact yields_read.2 ⟨rfl, rfl⟩

/-- Behind a look ahead, what it saw is known. -/
theorem Peeks.localIf_bind {v : ParseState → α} (h : p.Peeks v)
    (hv : ∀ {st st₀ : ParseState}, Agree st.tokens st₀.tokens → v st = v st₀)
    (hf : ∀ st, (f (v st)).LocalAt moved' st) : (p >>= f).LocalIf moved' := by
  intro st ctx b st' hyields
  obtain ⟨ts, hts, hmoved, hagain⟩ := hf st ((yields_peek h).1 hyields)
  refine ⟨ts, hts, hmoved, fun st₀ st₀' hpasses hagree => (yields_peek h).2 ?_⟩
  rw [← hv (hts.agree hpasses hagree)]
  exact hagain hpasses hagree

/-- In front of a token that is written, the token behind it may be looked at. -/
theorem localAt_second {f : Option TokenKind → Parser β} {st : ParseState} {kind : TokenKind}
    (hnext : st.nextKind? = some kind) (hkind : kind.isWritten)
    (hf : ∀ second, (f second).LocalIf moved') : (peekSecondKind? >>= f).LocalAt moved' st := by
  intro ctx b st' hyields
  obtain ⟨ts, hts, hmoved, hagain⟩ := hf _ st ((yields_peek peeks_peekSecondKind?).1 hyields)
  refine ⟨ts, hts, hmoved, fun st₀ st₀' hpasses hagree => ?_⟩
  have hsecond : st.secondKind? = st₀.secondKind? := by
    rw [ParseState.secondKind?, ParseState.secondKind?, (hts.agree hpasses hagree).second_eq]
    intro t ht
    rw [ParseState.nextKind?, ht] at hnext
    have hkind' : t.kind = kind := Option.some.inj hnext
    rwa [hkind']
  refine (yields_peek peeks_peekSecondKind?).2 ?_
  rw [← hsecond]
  exact hagain hpasses hagree

/-- In front of a name, the token behind it may be looked at. -/
theorem localIf_ident_second {f : Bool → Option TokenKind → Parser α}
    (hf : ∀ isIdent second, (f isIdent second).LocalIf moved)
    (hfalse : ∀ second second', f false second = f false second') :
    (nextIsIdent >>= fun isIdent => peekSecondKind? >>= f isIdent).LocalIf moved := by
  refine peeks_nextIsIdent.localIf_bind (fun h => by rw [nextKind?_of_agree h]) fun st => ?_
  split
  · rename_i hnext
    exact localAt_second hnext rfl (hf true)
  · -- behind anything but a name, the second token does not matter
    intro ctx a st' hyields
    obtain ⟨ts, hts, hmoved, hagain⟩ :=
      hf false _ st ((yields_peek peeks_peekSecondKind?).1 hyields)
    refine ⟨ts, hts, hmoved, fun st₀ st₀' hpasses hagree => ?_⟩
    refine (yields_peek peeks_peekSecondKind?).2 ?_
    rw [hfalse _ st.secondKind?]
    exact hagain hpasses hagree

/-! ## Failing -/

theorem localIf_failAt {span : Span} {fault : ParseFault} :
    (failAt span fault : Parser α).LocalIf moved :=
  localIf_of_not_yields not_yields_failAt

theorem localIf_failHere {fault : ParseFault} : (failHere fault : Parser α).LocalIf moved :=
  localIf_of_not_yields not_yields_failHere

theorem localIf_unexpected {expected : Expectation} :
    (unexpected expected : Parser α).LocalIf moved :=
  localIf_of_not_yields not_yields_unexpected

theorem local_fromExcept {x : Except ParseError α} : (fromExcept x).Local := by
  cases x with
  | ok a => exact local_pure
  | error e => exact localIf_of_not_yields not_yields_throw

/-! ## Taking tokens -/

/-- A token is taken that can be taken. -/
theorem yields_take_of_takes {ctx : ParseContext} {st st' : ParseState} {t : Token}
    (h : Takes st t st') : take.Yields ctx st t st' := by
  refine yields_bind.2 ⟨st, st, yields_get.2 ⟨rfl, rfl⟩, ?_⟩
  obtain ⟨tokens, comments, lastStop⟩ := st
  obtain ⟨tokens', comments', lastStop'⟩ := st'
  obtain ⟨htokens, hcomments, hstop, herror⟩ := h
  dsimp only at *
  subst htokens hcomments hstop
  dsimp only
  split
  · rename_i message hkind
    exact absurd hkind (herror message)
  · rfl

theorem yields_takePlace_of_takes {ctx : ParseContext} {st st' : ParseState} {t : Token}
    (h : Takes st t st') : takePlace.Yields ctx st t.span.start st' :=
  yields_bind.2 ⟨t, st', yields_take_of_takes h, yields_pure.2 ⟨rfl, rfl⟩⟩

/-- The next token is the one that is taken. -/
theorem nextKind?_of_takes {st st' : ParseState} {t : Token} (h : Takes st t st') :
    st.nextKind? = some t.kind := by
  rw [ParseState.nextKind?, h.tokens]
  rfl

theorem moves_take : take.Moves := by
  intro st ctx t st' hyields
  have ht := takes_of_take hyields
  refine ⟨[t], .cons ht .nil, by simp, fun st₀ st₀' hpasses _ => ?_⟩
  cases hpasses with
  | cons ht rest =>
    cases rest
    exact yields_take_of_takes ht

theorem moves_takePlace : takePlace.Moves := moves_take.bind fun _ => local_pure

theorem local_takeOp? (op : Operator) : (takeOp? op).Local :=
  (local_nextIsOp op).bind fun _ => .ite (moves_takePlace.bind fun _ => local_pure) local_pure

theorem moves_expectOp (op : Operator) : (expectOp op).Moves :=
  (local_nextIsOp op).bind fun _ => .ite moves_takePlace localIf_unexpected

theorem moves_expectKeyword (word : Keyword) : (expectKeyword word).Moves :=
  (local_nextIsKeyword word).bind fun _ => .ite moves_takePlace localIf_unexpected

theorem moves_expectWrittenSemicolon : expectWrittenSemicolon.Moves :=
  local_nextIsWrittenSemicolon.bind fun _ => .ite moves_takePlace localIf_unexpected

theorem moves_expectIdent : expectIdent.Moves := by
  refine local_peekKind?.bind fun kind? => ?_
  split
  · exact moves_takePlace.bind fun _ => local_pure
  · exact localIf_unexpected

theorem moves_expectLiteral : expectLiteral.Moves := by
  refine local_peekKind?.bind fun kind? => ?_
  split
  · exact moves_takePlace.bind fun _ => local_pure
  · exact localIf_unexpected

theorem local_endOfLine (close : Operator) : (endOfLine close).Local := by
  refine local_peekKind?.bind fun kind? => ?_
  split
  · exact moves_take.bind fun _ => local_pure
  · exact localIf_failHere
  · exact .ite local_pure localIf_unexpected
  · exact localIf_unexpected

theorem local_endOfDecl : endOfDecl.Local := by
  refine local_peekKind?.bind fun kind? => ?_
  split
  · exact moves_take.bind fun _ => local_pure
  · exact localIf_failHere
  · exact local_pure
  · exact localIf_unexpected

/-! ## Loops -/

/-- The turn of a loop goes on. -/
def Turn.goesOn {β : Type} : Turn σ β → Prop
  | .goOn _ => True
  | .stop _ => False

/-- A loop goes on `n` times from `s` and then stops with `b`. -/
inductive Loops {β : Type} (step : σ → Parser (Turn σ β)) (ctx : ParseContext) :
    (n : Nat) → (s : σ) → (st : ParseState) → (b : β) → (st' : ParseState) → Prop
  | stop {s : σ} {b : β} {st st' : ParseState} (h : (step s).Yields ctx st (.stop b) st') :
      Loops step ctx 0 s st b st'
  | goOn {n : Nat} {s s' : σ} {b : β} {st st₁ st' : ParseState}
      (h : (step s).Yields ctx st (.goOn s') st₁) (rest : Loops step ctx n s' st₁ b st') :
      Loops step ctx (n + 1) s st b st'

section

variable {step : σ → Parser (Turn σ β)} {ctx : ParseContext} {n : Nat} {s : σ} {b : β}
  {st st' : ParseState}

/-- With some fuel a loop goes on at most so many times. -/
theorem loops_of_iterateWith {fuel : List Token}
    (h : (iterateWith step fuel s).Yields ctx st b st') : ∃ n, Loops step ctx n s st b st' := by
  induction fuel generalizing s st with
  | nil =>
    obtain ⟨turn, st₁, hturn, hrest⟩ := yields_bind.1 h
    cases turn with
    | goOn s' => exact absurd hrest not_yields_unexpected
    | stop b' =>
      obtain ⟨rfl, rfl⟩ := yields_pure.1 hrest
      exact ⟨0, .stop hturn⟩
  | cons t fuel ih =>
    obtain ⟨turn, st₁, hturn, hrest⟩ := yields_bind.1 h
    cases turn with
    | goOn s' =>
      obtain ⟨n, hn⟩ := ih hrest
      exact ⟨n + 1, .goOn hturn hn⟩
    | stop b' =>
      obtain ⟨rfl, rfl⟩ := yields_pure.1 hrest
      exact ⟨0, .stop hturn⟩

/-- A loop that goes on at most as often as there is fuel does not run out of it. -/
theorem Loops.yields (h : Loops step ctx n s st b st') {fuel : List Token} (hn : n ≤ fuel.length) :
    (iterateWith step fuel s).Yields ctx st b st' := by
  induction h generalizing fuel with
  | stop h => cases fuel <;> exact yields_bind.2 ⟨_, _, h, yields_pure.2 ⟨rfl, rfl⟩⟩
  | goOn h _ ih =>
    cases fuel with
    | nil => simp at hn
    | cons t fuel => exact yields_bind.2 ⟨_, _, h, ih (Nat.le_of_succ_le_succ hn)⟩

/-- A loop that takes a token each time it goes on, goes on at most once for each token. -/
theorem Loops.passes (h : Loops step ctx n s st b st')
    (hstep : ∀ s, (step s).LocalIf Turn.goesOn) : ∃ ts, Passes st ts st' ∧ n ≤ ts.length ∧
      ∀ ⦃st₀ st₀'⦄, Passes st₀ ts st₀' → Agree st'.tokens st₀'.tokens →
        Loops step ctx n s st₀ b st₀' := by
  induction h with
  | stop h =>
    obtain ⟨ts, hts, -, hagain⟩ := hstep _ _ h
    exact ⟨ts, hts, Nat.zero_le _, fun _ _ hpasses hagree => .stop (hagain hpasses hagree)⟩
  | goOn h _ ih =>
    obtain ⟨ts, hts, hmoved, hagain⟩ := hstep _ _ h
    obtain ⟨us, hus, hn, hrest⟩ := ih
    refine ⟨ts ++ us, hts.append hus, ?_, fun st₀ st₀' hpasses hagree => ?_⟩
    · have := List.length_pos_iff.2 (hmoved trivial)
      rw [List.length_append]
      omega
    · obtain ⟨st₂, hts₂, hus₂⟩ := hpasses.split
      exact .goOn (hagain hts₂ (hus.agree hus₂ hagree)) (hrest hus₂ hagree)

/-- **A loop is local** if its steps are and each that goes on takes a token. -/
theorem local_iterate (hstep : ∀ s, (step s).LocalIf Turn.goesOn) (s : σ) :
    (iterate step s).Local := by
  intro st ctx b st' hyields
  obtain ⟨state, st₁, hget, hloop⟩ := yields_bind.1 hyields
  obtain ⟨rfl, rfl⟩ := yields_get.1 hget
  obtain ⟨n, hloops⟩ := loops_of_iterateWith hloop
  obtain ⟨ts, hts, hn, hagain⟩ := hloops.passes hstep
  refine ⟨ts, hts, False.elim, fun st₀ st₀' hpasses hagree => ?_⟩
  refine yields_bind.2 ⟨st₀, st₀, yields_get.2 ⟨rfl, rfl⟩, (hagain hpasses hagree).yields ?_⟩
  rw [hpasses.tokens, List.length_append]
  omega

end

/-- The step that reads an item takes a token, unless it finds that there is none and stops. -/
theorem localIf_collectStep {done : Parser Bool} {item : Parser (α × Bool)} (hdone : done.Local)
    (hitem : item.Moves) {items : Array α} {moved : Turn (Array α) (List α) → Prop}
    (hstop : ¬moved (.stop items.toList)) : (collectStep done item items).LocalIf moved := by
  refine hdone.bind fun isDone => .ite (localIf_pure hstop) (hitem.bind fun (value, last) => ?_)
  exact .ite local_pure local_pure

/-- Items are read one after the other, each with a token of its own. -/
theorem local_collect {done : Parser Bool} {item : Parser (α × Bool)} (hdone : done.Local)
    (hitem : item.Moves) : (collect done item).Local :=
  local_iterate (fun _ => localIf_collectStep hdone hitem id) #[]

theorem local_many {done : Parser Bool} {item : Parser α} (hdone : done.Local)
    (hitem : item.Moves) : (many done item).Local :=
  local_collect hdone (hitem.bind fun _ => local_pure)

theorem moves_commaSeparated {item : Parser α} (hitem : item.Moves) :
    (commaSeparated item).Moves := by
  refine hitem.bind fun first => ?_
  refine Local.bind (local_many ((local_nextIsOp .comma).bind fun _ => local_pure) ?_) fun _ => local_pure
  exact moves_takePlace.bind fun _ => hitem.local.bind fun _ => local_pure

end Parser

end GoTrace
