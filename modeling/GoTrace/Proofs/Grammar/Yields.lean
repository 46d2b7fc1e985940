import GoTrace.Grammar.File
import GoTrace.Proofs.Token.Written

/-!
# What a parser yields

`Parser.Yields` is a successful run of a parser, from one state to the next. A sequence of parsers
yields something iff its parts do, one after the other; a parser that only looks ahead leaves the
state alone; and what a parser takes off the front of the tokens is said by `Takes` and `Marks`. The
rules of the grammar are taken apart with these lemmas, in the order in which they read.
-/

namespace GoTrace

/-- A run that has a result is successful with it. -/
theorem ok_of_toOption {ε α : Type} {x : Except ε α} {a : α} (h : x.toOption = some a) :
    x = .ok a := by
  cases x with
  | error e => cases h
  | ok b => rw [Option.some.inj h]

namespace Parser

variable {α β : Type} {p : Parser α} {f : α → Parser β} {ctx : ParseContext}
  {st st' : ParseState}

/-- The parser goes from `st` to `st'` and returns `a`. -/
def Yields (p : Parser α) (ctx : ParseContext) (st : ParseState) (a : α) (st' : ParseState) : Prop :=
  (p.run ctx).run st = .ok (a, st')

/-- A parser yields at most one thing. -/
theorem Yields.unique {a b : α} {st'' : ParseState} (h : p.Yields ctx st a st')
    (h' : p.Yields ctx st b st'') : a = b ∧ st' = st'' :=
  Prod.mk.inj (Except.ok.inj (h.symm.trans h'))

/-- Returning a value leaves the state alone. -/
theorem yields_pure {a b : α} : (pure a : Parser α).Yields ctx st b st' ↔ a = b ∧ st = st' := by
  change Except.ok (a, st) = Except.ok (b, st') ↔ _
  rw [Except.ok.injEq, Prod.mk.injEq]

/-- A sequence yields what its second part yields behind its first. -/
theorem yields_bind {b : β} {st'' : ParseState} :
    (p >>= f).Yields ctx st b st'' ↔
      ∃ a st', p.Yields ctx st a st' ∧ (f a).Yields ctx st' b st'' := by
  rw [Yields, ReaderT.run_bind, StateT.run_bind]
  simp only [Yields]
  rcases (p.run ctx).run st with e | ⟨a, st₁⟩
  · simp [bind, Except.bind]
  · simp [bind, Except.bind, and_assoc]

/-- A function of what a parser yields. -/
theorem yields_map {g : α → β} {b : β} :
    (g <$> p).Yields ctx st b st' ↔ ∃ a, p.Yields ctx st a st' ∧ g a = b := by
  rw [← bind_pure_comp, yields_bind]
  constructor
  · rintro ⟨a, _, hp, h⟩
    obtain ⟨rfl, rfl⟩ := yields_pure.1 h
    exact ⟨a, hp, rfl⟩
  · rintro ⟨a, hp, rfl⟩
    exact ⟨a, st', hp, yields_pure.2 ⟨rfl, rfl⟩⟩

/-- A choice in front of a parser yields what the parser yields behind the part that is chosen. -/
theorem yields_ite_bind {c : Prop} [Decidable c] {q : Parser α} {b : β} {st'' : ParseState} :
    (if c then p >>= f else q >>= f).Yields ctx st b st'' ↔
      ∃ a st', (if c then p else q).Yields ctx st a st' ∧ (f a).Yields ctx st' b st'' := by
  split <;> exact yields_bind

/-- A failing parser yields nothing. -/
theorem not_yields_throw {e : ParseError} {a : α} : ¬(throw e : Parser α).Yields ctx st a st' := by
  simp [Yields, throw, throwThe, MonadExceptOf.throw, ReaderT.run, StateT.run, liftM, monadLift,
    MonadLift.monadLift, StateT.lift, bind, Except.bind]

/-- A parser yields the same with literals switched on or off for it. -/
theorem yields_withLiterals {allowed : Bool} {a : α} :
    (withLiterals allowed p).Yields ctx st a st' ↔ p.Yields ⟨allowed⟩ st a st' := Iff.rfl

/-- Looking at the state leaves it alone. -/
theorem yields_get {state : ParseState} :
    (get : Parser ParseState).Yields ctx st state st' ↔ st = state ∧ st = st' := by
  have h : (get : Parser ParseState).Yields ctx st state st' ↔
      (.ok (st, st) : Except ParseError (ParseState × ParseState)) = .ok (state, st') := Iff.rfl
  rw [h, Except.ok.injEq, Prod.mk.injEq]

/-- Asking what the rules around say leaves the state alone. -/
theorem yields_read {ctx' : ParseContext} :
    (read : Parser ParseContext).Yields ctx st ctx' st' ↔ ctx = ctx' ∧ st = st' := by
  have h : (read : Parser ParseContext).Yields ctx st ctx' st' ↔
      (.ok (ctx, st) : Except ParseError (ParseContext × ParseState)) = .ok (ctx', st') := Iff.rfl
  rw [h, Except.ok.injEq, Prod.mk.injEq]

/-! ## Looking ahead -/

/-- The parser only looks at the state, and returns what `v` says. -/
def Peeks (p : Parser α) (v : ParseState → α) : Prop :=
  ∀ ctx st, (p.run ctx).run st = .ok (v st, st)

/-- A look ahead yields what it says. -/
theorem yields_of_peeks {v : ParseState → α} {a : α} (h : p.Peeks v) :
    p.Yields ctx st a st' ↔ v st = a ∧ st = st' := by
  rw [Yields, h, Except.ok.injEq, Prod.mk.injEq]

/-- Behind a look ahead the state is the same. -/
theorem yields_peek {v : ParseState → α} {b : β} (h : p.Peeks v) :
    (p >>= f).Yields ctx st b st' ↔ (f (v st)).Yields ctx st b st' := by
  rw [yields_bind]
  constructor
  · rintro ⟨a, st₁, hp, hf⟩
    obtain ⟨rfl, rfl⟩ := (yields_of_peeks h).1 hp
    exact hf
  · intro hf
    exact ⟨v st, st, h ctx st, hf⟩

end Parser

/-- The kind of the next token. -/
def ParseState.nextKind? (st : ParseState) : Option TokenKind := st.tokens.head?.map (·.kind)

/-- The kind of the token behind the next. -/
def ParseState.secondKind? (st : ParseState) : Option TokenKind := st.tokens[1]?.map (·.kind)

namespace Parser

theorem peeks_peekKind? : peekKind?.Peeks ParseState.nextKind? := fun _ _ => rfl

theorem peeks_peekSecondKind? : peekSecondKind?.Peeks ParseState.secondKind? := fun _ _ => rfl

theorem peeks_nextIsOp (op : Operator) :
    (nextIsOp op).Peeks (·.nextKind? == some (.operator op)) := fun _ _ => rfl

theorem peeks_nextIsKeyword (word : Keyword) :
    (nextIsKeyword word).Peeks (·.nextKind? == some (.keyword word)) := fun _ _ => rfl

theorem peeks_nextIsWrittenSemicolon :
    nextIsWrittenSemicolon.Peeks (·.nextKind? == some (.semicolon false)) := fun _ _ => rfl

theorem peeks_atEnd : atEnd.Peeks (·.nextKind?.all (· == .eof)) := fun _ _ => rfl

theorem peeks_peekSpan :
    peekSpan.Peeks fun st => (st.tokens.head?.map (·.span)).getD (.empty st.lastStop) :=
  fun _ _ => rfl

theorem peeks_peekOp? : peekOp?.Peeks fun st =>
    match st.nextKind? with
    | some (.operator op) => some op
    | _ => none := by
  intro ctx st
  rw [peekOp?, ReaderT.run_bind, StateT.run_bind, peeks_peekKind? ctx st]
  dsimp only [bind, Except.bind]
  split <;> simp_all <;> rfl

/-- An operator that is seen is the next token. -/
theorem nextKind?_of_peekOp? {ctx : ParseContext} {st st' : ParseState} {op? : Option Operator}
    (h : peekOp?.Yields ctx st op? st') :
    st = st' ∧ ∀ {op}, op? = some op → st.nextKind? = some (.operator op) := by
  obtain ⟨heq, rfl⟩ := (yields_of_peeks peeks_peekOp?).1 h
  refine ⟨rfl, fun hop => ?_⟩
  rw [hop] at heq
  split at heq
  · rename_i hkind
    rw [hkind, Option.some.inj heq]
  · cases heq

theorem peeks_peekKeyword? : peekKeyword?.Peeks fun st =>
    match st.nextKind? with
    | some (.keyword word) => some word
    | _ => none := by
  intro ctx st
  rw [peekKeyword?, ReaderT.run_bind, StateT.run_bind, peeks_peekKind? ctx st]
  dsimp only [bind, Except.bind]
  split <;> simp_all <;> rfl

theorem peeks_nextIsIdent : nextIsIdent.Peeks fun st =>
    match st.nextKind? with
    | some (.ident _) => true
    | _ => false := by
  intro ctx st
  rw [nextIsIdent, ReaderT.run_bind, StateT.run_bind, peeks_peekKind? ctx st]
  dsimp only [bind, Except.bind]
  split <;> simp_all <;> rfl

theorem peeks_nextIsString : nextIsString.Peeks fun st =>
    match st.nextKind? with
    | some (.literal .string _) => true
    | _ => false := by
  intro ctx st
  rw [nextIsString, ReaderT.run_bind, StateT.run_bind, peeks_peekKind? ctx st]
  dsimp only [bind, Except.bind]
  split <;> simp_all <;> rfl

end Parser

/-! ## Failing -/

namespace Parser

variable {α : Type} {ctx : ParseContext} {st st' : ParseState} {a : α}

theorem not_yields_failAt {span : Span} {fault : ParseFault} :
    ¬(failAt span fault : Parser α).Yields ctx st a st' := not_yields_throw

theorem not_yields_unexpected {expected : Expectation} :
    ¬(unexpected expected : Parser α).Yields ctx st a st' := by
  intro h
  obtain ⟨state, _, -, h⟩ := yields_bind.1 h
  split at h <;> exact not_yields_failAt h

theorem not_yields_failHere {fault : ParseFault} :
    ¬(failHere fault : Parser α).Yields ctx st a st' := by
  intro h
  obtain ⟨span, _, -, h⟩ := yields_bind.1 h
  exact not_yields_failAt h

/-- A value that was worked out without tokens leaves the state alone. -/
theorem yields_fromExcept {x : Except ParseError α} (h : (fromExcept x).Yields ctx st a st') :
    x = .ok a ∧ st = st' := by
  cases x with
  | ok b =>
    obtain ⟨rfl, rfl⟩ := yields_pure.1 h
    exact ⟨rfl, rfl⟩
  | error e => exact absurd h not_yields_throw

end Parser

/-! ## Taking tokens -/

/-- From `st` to `st'` the token `t` is taken, and its comments are put aside. -/
structure Takes (st : ParseState) (t : Token) (st' : ParseState) : Prop where
  tokens : st.tokens = t :: st'.tokens
  comments : st'.comments = st.comments ++ t.comments
  lastStop : st'.lastStop = t.span.stop
  noError : ∀ message, t.kind ≠ .error message

/-- From `st` to `st'` the tokens `ts` are taken. -/
inductive Passes : (st : ParseState) → (ts : List Token) → (st' : ParseState) → Prop
  | nil {st : ParseState} : Passes st [] st
  | cons {st st₁ st' : ParseState} {t : Token} {ts : List Token} (h : Takes st t st₁)
      (rest : Passes st₁ ts st') : Passes st (t :: ts) st'

section

variable {st st₁ st' : ParseState} {ts us : List Token}

/-- Tokens are taken one list after the other. -/
theorem Passes.append (h : Passes st ts st₁) (h' : Passes st₁ us st') :
    Passes st (ts ++ us) st' := by
  induction h with
  | nil => exact h'
  | cons h _ ih => exact .cons h (ih h')

/-- Tokens that are taken are taken one part after the other. -/
theorem Passes.split (h : Passes st (ts ++ us) st') : ∃ st₁, Passes st ts st₁ ∧ Passes st₁ us st' := by
  induction ts generalizing st with
  | nil => exact ⟨st, .nil, h⟩
  | cons t ts ih =>
    cases h with
    | cons h rest =>
      obtain ⟨st₁, hts, hus⟩ := ih rest
      exact ⟨st₁, .cons h hts, hus⟩

/-- The tokens that are taken are those in front. -/
theorem Passes.tokens (h : Passes st ts st') : st.tokens = ts ++ st'.tokens := by
  induction h with
  | nil => rfl
  | cons h _ ih => rw [h.tokens, ih, List.cons_append]

end

/-- From `st` to `st'` a token of a kind is taken, which starts at `place`. -/
def Marks (kind : TokenKind) (place : Offset) (st st' : ParseState) : Prop :=
  ∃ t, Takes st t st' ∧ t.kind = kind ∧ t.span.start = place

/-- From `st` to `st'` a token of a kind is taken if there is a place for it, and nothing else. -/
def MarksOpt (kind : TokenKind) (place? : Option Offset) (st st' : ParseState) : Prop :=
  match place? with
  | none => st = st'
  | some place => Marks kind place st st'

/-- From `st` to `st'` at most an implicit semicolon is taken. -/
def Skips (st st' : ParseState) : Prop :=
  st = st' ∨ ∃ t, Takes st t st' ∧ t.kind = .semicolon true

namespace Parser

variable {ctx : ParseContext} {st st' : ParseState}

theorem takes_of_take {t : Token} (h : take.Yields ctx st t st') : Takes st t st' := by
  obtain ⟨state, st₁, hget, h⟩ := yields_bind.1 h
  obtain ⟨rfl, rfl⟩ := yields_get.1 hget
  split at h
  · exact absurd h not_yields_unexpected
  rename_i token rest htokens
  split at h
  · exact absurd h not_yields_failAt
  rename_i hkind
  obtain ⟨_, st₂, hset, h⟩ := yields_bind.1 h
  obtain ⟨rfl, rfl⟩ := yields_pure.1 h
  rw [Yields] at hset
  obtain ⟨-, rfl⟩ := Prod.mk.inj (Except.ok.inj hset)
  exact ⟨htokens, by simp, rfl, hkind⟩

/-- The place of the next token is that of its kind. -/
theorem marks_of_takePlace {kind : TokenKind} {place : Offset}
    (h : takePlace.Yields ctx st place st') (hkind : st.nextKind? = some kind) :
    Marks kind place st st' := by
  obtain ⟨t, _, ht, h⟩ := yields_bind.1 h
  obtain ⟨rfl, rfl⟩ := yields_pure.1 h
  have ht := takes_of_take ht
  rw [ParseState.nextKind?, ht.tokens, List.head?_cons, Option.map_some, Option.some.injEq] at hkind
  exact ⟨t, ht, hkind, rfl⟩

/-- The place of a token that was looked for is that of the next token. -/
private theorem marks_of_ite {kind : TokenKind} {place : Offset} {fault : Expectation}
    (h : (if (st.nextKind? == some kind) = true then takePlace else unexpected fault).Yields ctx st
      place st') : Marks kind place st st' := by
  split at h
  · rename_i hkind
    exact marks_of_takePlace h (beq_iff_eq.1 hkind)
  · exact absurd h not_yields_unexpected

theorem marks_of_expectOp {op : Operator} {place : Offset}
    (h : (expectOp op).Yields ctx st place st') : Marks (.operator op) place st st' :=
  marks_of_ite ((yields_peek (peeks_nextIsOp op)).1 h)

theorem marks_of_expectKeyword {word : Keyword} {place : Offset}
    (h : (expectKeyword word).Yields ctx st place st') : Marks (.keyword word) place st st' :=
  marks_of_ite ((yields_peek (peeks_nextIsKeyword word)).1 h)

theorem marks_of_expectWrittenSemicolon {place : Offset}
    (h : expectWrittenSemicolon.Yields ctx st place st') : Marks (.semicolon false) place st st' :=
  marks_of_ite ((yields_peek peeks_nextIsWrittenSemicolon).1 h)

theorem marks_of_takeOp? {op : Operator} {place? : Option Offset}
    (h : (takeOp? op).Yields ctx st place? st') : MarksOpt (.operator op) place? st st' := by
  have h := (yields_peek (peeks_nextIsOp op)).1 h
  split at h
  · rename_i hop
    obtain ⟨place, _, hplace, h⟩ := yields_bind.1 h
    obtain ⟨rfl, rfl⟩ := yields_pure.1 h
    exact marks_of_takePlace hplace (beq_iff_eq.1 hop)
  · obtain ⟨rfl, rfl⟩ := yields_pure.1 h
    exact rfl

theorem marks_of_expectIdent {x : Ident} (h : expectIdent.Yields ctx st x st') :
    Marks (.ident x.name) x.place st st' := by
  have h := (yields_peek peeks_peekKind?).1 h
  split at h
  · rename_i name hname
    obtain ⟨place, _, hplace, h⟩ := yields_bind.1 h
    obtain ⟨rfl, rfl⟩ := yields_pure.1 h
    exact marks_of_takePlace hplace hname
  · exact absurd h not_yields_unexpected

theorem marks_of_expectLiteral {x : BasicLit} (h : expectLiteral.Yields ctx st x st') :
    Marks (.literal x.kind x.text) x.place st st' := by
  have h := (yields_peek peeks_peekKind?).1 h
  split at h
  · rename_i kind text hkind
    obtain ⟨place, _, hplace, h⟩ := yields_bind.1 h
    obtain ⟨rfl, rfl⟩ := yields_pure.1 h
    exact marks_of_takePlace hplace hkind
  · exact absurd h not_yields_unexpected

/-- Taking the next token where an implicit semicolon was seen skips it. -/
private theorem skips_of_take {t : Token} (h : take.Yields ctx st t st')
    (hkind : st.nextKind? = some (.semicolon true)) : Skips st st' := by
  have ht := takes_of_take h
  rw [ParseState.nextKind?, ht.tokens, List.head?_cons, Option.map_some, Option.some.injEq] at hkind
  exact .inr ⟨t, ht, hkind⟩

theorem skips_of_endOfLine {close : Operator} (h : (endOfLine close).Yields ctx st () st') :
    Skips st st' := by
  have h := (yields_peek peeks_peekKind?).1 h
  split at h
  · rename_i hkind
    obtain ⟨t, _, ht, h⟩ := yields_bind.1 h
    obtain ⟨-, rfl⟩ := yields_pure.1 h
    exact skips_of_take ht hkind
  · exact absurd h not_yields_failHere
  · split at h
    · obtain ⟨-, rfl⟩ := yields_pure.1 h
      exact .inl rfl
    · exact absurd h not_yields_unexpected
  · exact absurd h not_yields_unexpected

theorem skips_of_endOfDecl (h : endOfDecl.Yields ctx st () st') : Skips st st' := by
  have h := (yields_peek peeks_peekKind?).1 h
  split at h
  · rename_i hkind
    obtain ⟨t, _, ht, h⟩ := yields_bind.1 h
    obtain ⟨-, rfl⟩ := yields_pure.1 h
    exact skips_of_take ht hkind
  · exact absurd h not_yields_failHere
  · obtain ⟨-, rfl⟩ := yields_pure.1 h
    exact .inl rfl
  · exact absurd h not_yields_unexpected

/-! ## Loops -/

/-- What holds in front of a loop, and is kept by each step that goes on, is there when it stops. -/
theorem invariant_of_iterate {σ β : Type} {step : σ → Parser (Turn σ β)} {ctx : ParseContext}
    {P : σ → ParseState → Prop} {Q : β → ParseState → Prop}
    (goOn : ∀ {s st s' st'}, P s st → (step s).Yields ctx st (.goOn s') st' → P s' st')
    (stop : ∀ {s st b st'}, P s st → (step s).Yields ctx st (.stop b) st' → Q b st')
    {s : σ} {st : ParseState} {b : β} {st' : ParseState} (hs : P s st)
    (h : (iterate step s).Yields ctx st b st') : Q b st' := by
  obtain ⟨state, st₁, hget, hloop⟩ := yields_bind.1 h
  obtain ⟨-, rfl⟩ := yields_get.1 hget
  clear h hget
  -- the fuel does not matter: what is said of a loop is said of its steps
  generalize state.tokens = fuel at hloop
  induction fuel generalizing s st with
  | nil =>
    obtain ⟨turn, st₂, hstep, hloop⟩ := yields_bind.1 hloop
    cases turn with
    | goOn s' => exact absurd hloop not_yields_unexpected
    | stop b' =>
      obtain ⟨rfl, rfl⟩ := yields_pure.1 hloop
      exact stop hs hstep
  | cons _ fuel ih =>
    obtain ⟨turn, st₂, hstep, hloop⟩ := yields_bind.1 hloop
    cases turn with
    | goOn s' => exact ih (goOn hs hstep) hloop
    | stop b' =>
      obtain ⟨rfl, rfl⟩ := yields_pure.1 hloop
      exact stop hs hstep

/-- The items that `collect` reads from `st` to `st'`: each is read where `done` finds that there is
one, and all but the last say that more may follow. -/
inductive Collected {α : Type} (done : Parser Bool) (item : Parser (α × Bool)) (ctx : ParseContext) :
    List α → ParseState → ParseState → Prop
  | done {st st' : ParseState} (h : done.Yields ctx st true st') : Collected done item ctx [] st st'
  | last {x : α} {st st₁ st' : ParseState} (hdone : done.Yields ctx st false st₁)
      (h : item.Yields ctx st₁ (x, true) st') : Collected done item ctx [x] st st'
  | next {x : α} {xs : List α} {st st₁ st₂ st' : ParseState} (hdone : done.Yields ctx st false st₁)
      (h : item.Yields ctx st₁ (x, false) st₂) (rest : Collected done item ctx xs st₂ st') :
      Collected done item ctx (x :: xs) st st'

theorem collected_of_collect {α : Type} {done : Parser Bool} {item : Parser (α × Bool)}
    {xs : List α} (h : (collect done item).Yields ctx st xs st') :
    Collected done item ctx xs st st' := by
  -- the items read so far stand in front of those still to be read
  refine invariant_of_iterate
    (P := fun (made : Array α) st₁ => ∀ {ys st'}, Collected done item ctx ys st₁ st' →
      Collected done item ctx (made.toList ++ ys) st st')
    (Q := fun xs st' => Collected done item ctx xs st st') ?_ ?_ ?_ h
  · intro made st₁ made' st₂ hmade hstep ys st' hys
    obtain ⟨done?, st₃, hdone, hstep⟩ := yields_bind.1 hstep
    cases done? with
    | true => cases (yields_pure.1 hstep).1
    | false =>
      obtain ⟨⟨x, last⟩, st₄, hitem, hstep⟩ := yields_bind.1 hstep
      cases last with
      | true => cases (yields_pure.1 hstep).1
      | false =>
        obtain ⟨heq, rfl⟩ := yields_pure.1 hstep
        obtain rfl := Turn.goOn.inj heq
        rw [Array.toList_push, List.append_assoc]
        exact hmade (.next hdone hitem hys)
  · intro made st₁ xs st₂ hmade hstep
    obtain ⟨done?, st₃, hdone, hstep⟩ := yields_bind.1 hstep
    cases done? with
    | true =>
      obtain ⟨heq, rfl⟩ := yields_pure.1 hstep
      obtain rfl := Turn.stop.inj heq
      rw [← List.append_nil made.toList]
      exact hmade (.done hdone)
    | false =>
      obtain ⟨⟨x, last⟩, st₄, hitem, hstep⟩ := yields_bind.1 hstep
      cases last with
      | false => cases (yields_pure.1 hstep).1
      | true =>
        obtain ⟨heq, rfl⟩ := yields_pure.1 hstep
        obtain rfl := Turn.stop.inj heq
        rw [Array.toList_push]
        exact hmade (.last hdone hitem)
  · intro ys st' hys
    exact hys

end Parser

end GoTrace
