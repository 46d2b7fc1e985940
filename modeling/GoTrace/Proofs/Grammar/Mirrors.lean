import GoTrace.Proofs.Grammar.Yields
import GoTrace.Proofs.Syntax.Bare

/-!
# Parsers do not see places

`Parser.Mirrors p q` compares two runs: what `p` does to tokens, `q` does to the same tokens without
places and comments. Either both fail for the same reason, or both return the same value but for its
places and leave the same tokens. A rule that mirrors itself can make no choice that depends on
where a token stands. The relation is kept by sequences, choices and loops; a parser that is given a
tree mirrors the one that is given the bare tree.
-/

namespace GoTrace

/-- Two outcomes that are the same but for places. -/
inductive Alike {α : Type} [Bare α] : Except ParseError α → Except ParseError α → Prop
  | ok (a : α) : Alike (.ok a) (.ok (bare a))
  | error {e e' : ParseError} (h : e.fault = e'.fault) : Alike (.error e) (.error e')

/-- What is behind outcomes that are alike is alike if it is so behind the same value. -/
theorem Alike.bind {α β : Type} [Bare α] [Bare β] {x y : Except ParseError α}
    {f g : α → Except ParseError β} (h : Alike x y) (hf : ∀ a, Alike (f a) (g (bare a))) :
    Alike (x >>= f) (y >>= g) := by
  cases h with
  | ok a => exact hf a
  | error h => exact .error h

/-- Outcomes that are alike the same are both a success, with the same value but for places, or both
fail for the same reason. -/
theorem Alike.of_same {α : Type} [Bare α] {x y z : Except ParseError α} (h : Alike x z)
    (h' : Alike y z) : (∃ a b, x = .ok a ∧ y = .ok b ∧ bare a = bare b) ∨
      ∃ e e', x = .error e ∧ y = .error e' ∧ e.fault = e'.fault := by
  cases h with
  | ok a =>
    generalize hbare : bare a = b at h'
    cases h' with
    | ok a' => exact .inl ⟨a, a', rfl, rfl, hbare⟩
  | error h =>
    cases h' with
    | error h' => exact .inr ⟨_, _, rfl, rfl, h.trans h'.symm⟩

instance : Bare ParseState := ⟨fun st => ⟨bare st.tokens, #[], .zero⟩⟩

theorem ParseState.nextKind?_bare (st : ParseState) : (bare st).nextKind? = st.nextKind? := by
  obtain ⟨tokens, comments, lastStop⟩ := st
  cases tokens <;> rfl

theorem ParseState.secondKind?_bare (st : ParseState) : (bare st).secondKind? = st.secondKind? := by
  obtain ⟨tokens, comments, lastStop⟩ := st
  obtain _ | ⟨t, _ | ⟨u, tokens⟩⟩ := tokens <;> rfl

namespace Parser

instance {σ β : Type} [Bare σ] [Bare β] : Bare (Turn σ β) where
  bare
    | .goOn s => .goOn (bare s)
    | .stop b => .stop (bare b)

variable {α β σ : Type} [Bare α] [Bare β] [Bare σ]

@[simp] theorem bare_goOn (s : σ) : bare (Turn.goOn s : Turn σ β) = .goOn (bare s) := rfl

@[simp] theorem bare_stop (b : β) : bare (Turn.stop b : Turn σ β) = .stop (bare b) := rfl

/-- What `p` does to tokens, `q` does to the same tokens without places and comments. -/
def Mirrors (p q : Parser α) : Prop :=
  ∀ ctx st, Alike ((p.run ctx).run st) ((q.run ctx).run (bare st))

variable {p q : Parser α} {f g : α → Parser β}

/-! ## Sequences and choices -/

theorem mirrors_pure {a b : α} (h : bare a = b) : Mirrors (pure a) (pure b) := by
  subst h
  exact fun ctx st => .ok (a, st)

theorem Mirrors.bind (hp : Mirrors p q) (hf : ∀ a, Mirrors (f a) (g (bare a))) :
    Mirrors (p >>= f) (q >>= g) := by
  intro ctx st
  simp only [ReaderT.run_bind, StateT.run_bind]
  exact (hp ctx st).bind fun (a, st') => hf a ctx st'

theorem Mirrors.some (hp : Mirrors p q) : Mirrors (some <$> p) (some <$> q) := by
  rw [← bind_pure_comp, ← bind_pure_comp]
  exact hp.bind fun a => mirrors_pure rfl

theorem Mirrors.ite {c : Prop} [Decidable c] {p' q' : Parser α} (hp : Mirrors p q)
    (hp' : Mirrors p' q') : Mirrors (if c then p else p') (if c then q else q') := by
  split
  · exact hp
  · exact hp'

theorem Mirrors.withLiterals {allowed : Bool} (hp : Mirrors p q) :
    Mirrors (withLiterals allowed p) (withLiterals allowed q) := fun _ st => hp ⟨allowed⟩ st

/-! ## Failing -/

theorem mirrors_throw {e e' : ParseError} (h : e.fault = e'.fault) :
    Mirrors (throw e : Parser α) (throw e') := fun _ _ => .error h

theorem mirrors_failAt {span span' : Span} {fault : ParseFault} :
    Mirrors (failAt span fault : Parser α) (failAt span' fault) := mirrors_throw rfl

theorem mirrors_unexpected {expected : Expectation} :
    Mirrors (unexpected expected : Parser α) (unexpected expected) := by
  rintro ctx ⟨_ | ⟨t, tokens⟩, comments, lastStop⟩
  · exact .error rfl
  · exact .error rfl

theorem mirrors_failHere {fault : ParseFault} :
    Mirrors (failHere fault : Parser α) (failHere fault) := fun _ _ => .error rfl

theorem mirrors_fromExcept {x y : Except ParseError α} (h : Alike x y) :
    Mirrors (fromExcept x) (fromExcept y) := by
  cases h with
  | ok a => exact mirrors_pure rfl
  | error h => exact mirrors_throw h

/-! ## Looking ahead -/

omit [Bare α] in
/-- A look ahead at kinds sees the same, so what is behind it may be chosen by what it sees. -/
theorem Peeks.mirrors_bind {f g : α → Parser β} {p : Parser α} {v : ParseState → α} (h : p.Peeks v)
    (hv : ∀ st, v (bare st) = v st) (hf : ∀ a, Mirrors (f a) (g a)) :
    Mirrors (p >>= f) (p >>= g) := by
  intro ctx st
  simp only [ReaderT.run_bind, StateT.run_bind, h ctx st, h ctx (bare st), hv]
  exact hf (v st) ctx st

/-- A look ahead mirrors itself if it sees the same but for places. -/
theorem Peeks.mirrors {v : ParseState → α} (h : p.Peeks v)
    (hv : ∀ st, v (bare st) = bare (v st)) : Mirrors p p := by
  intro ctx st
  rw [h ctx st, h ctx (bare st), hv]
  exact .ok (v st, st)

/-- A choice by the kind of the next token. -/
theorem mirrors_peekKind? {f g : Option TokenKind → Parser β}
    (hf : ∀ kind?, Mirrors (f kind?) (g kind?)) :
    Mirrors (peekKind? >>= f) (peekKind? >>= g) :=
  peeks_peekKind?.mirrors_bind ParseState.nextKind?_bare hf

/-- A choice by the kind of the second token. -/
theorem mirrors_peekSecondKind? {f g : Option TokenKind → Parser β}
    (hf : ∀ kind?, Mirrors (f kind?) (g kind?)) :
    Mirrors (peekSecondKind? >>= f) (peekSecondKind? >>= g) :=
  peeks_peekSecondKind?.mirrors_bind ParseState.secondKind?_bare hf

theorem mirrors_peekOp? {f g : Option Operator → Parser β} (hf : ∀ op?, Mirrors (f op?) (g op?)) :
    Mirrors (peekOp? >>= f) (peekOp? >>= g) :=
  peeks_peekOp?.mirrors_bind (fun st => by rw [st.nextKind?_bare]) hf

theorem mirrors_peekKeyword? {f g : Option Keyword → Parser β}
    (hf : ∀ word?, Mirrors (f word?) (g word?)) :
    Mirrors (peekKeyword? >>= f) (peekKeyword? >>= g) :=
  peeks_peekKeyword?.mirrors_bind (fun st => by rw [st.nextKind?_bare]) hf

theorem mirrors_nextIsOp (op : Operator) : Mirrors (nextIsOp op) (nextIsOp op) :=
  (peeks_nextIsOp op).mirrors fun st => by rw [st.nextKind?_bare]; rfl

theorem mirrors_nextIsKeyword (word : Keyword) :
    Mirrors (nextIsKeyword word) (nextIsKeyword word) :=
  (peeks_nextIsKeyword word).mirrors fun st => by rw [st.nextKind?_bare]; rfl

theorem mirrors_nextIsWrittenSemicolon : Mirrors nextIsWrittenSemicolon nextIsWrittenSemicolon :=
  peeks_nextIsWrittenSemicolon.mirrors fun st => by rw [st.nextKind?_bare]; rfl

theorem mirrors_nextIsIdent : Mirrors nextIsIdent nextIsIdent :=
  peeks_nextIsIdent.mirrors fun st => by rw [st.nextKind?_bare]; rfl

theorem mirrors_nextIsString : Mirrors nextIsString nextIsString :=
  peeks_nextIsString.mirrors fun st => by rw [st.nextKind?_bare]; rfl

theorem mirrors_atEnd : Mirrors atEnd atEnd :=
  peeks_atEnd.mirrors fun st => by rw [st.nextKind?_bare]; rfl

theorem mirrors_peekSpan : Mirrors peekSpan peekSpan :=
  peeks_peekSpan.mirrors fun ⟨tokens, _, _⟩ => by cases tokens <;> rfl

theorem mirrors_get : Mirrors (get : Parser ParseState) get := fun _ st => .ok (st, st)

/-! ## Taking tokens -/

theorem mirrors_take : Mirrors take take := by
  rintro ctx ⟨_ | ⟨⟨kind, comments, span⟩, tokens⟩, taken, lastStop⟩
  · exact .error rfl
  · cases kind with
    | error message => exact .error rfl
    | _ => exact .ok (_, _)

theorem mirrors_takePlace : Mirrors takePlace takePlace :=
  mirrors_take.bind fun _ => mirrors_pure rfl

theorem mirrors_takeOp? (op : Operator) : Mirrors (takeOp? op) (takeOp? op) :=
  (mirrors_nextIsOp op).bind fun _ =>
    .ite (mirrors_takePlace.bind fun _ => mirrors_pure rfl) (mirrors_pure rfl)

theorem mirrors_expectOp (op : Operator) : Mirrors (expectOp op) (expectOp op) :=
  (mirrors_nextIsOp op).bind fun _ => .ite mirrors_takePlace mirrors_unexpected

theorem mirrors_expectKeyword (word : Keyword) :
    Mirrors (expectKeyword word) (expectKeyword word) :=
  (mirrors_nextIsKeyword word).bind fun _ => .ite mirrors_takePlace mirrors_unexpected

theorem mirrors_expectWrittenSemicolon : Mirrors expectWrittenSemicolon expectWrittenSemicolon :=
  mirrors_nextIsWrittenSemicolon.bind fun _ => .ite mirrors_takePlace mirrors_unexpected

theorem mirrors_expectIdent : Mirrors expectIdent expectIdent := by
  refine mirrors_peekKind? fun kind? => ?_
  split
  · exact mirrors_takePlace.bind fun _ => mirrors_pure rfl
  · exact mirrors_unexpected

theorem mirrors_expectLiteral : Mirrors expectLiteral expectLiteral := by
  refine mirrors_peekKind? fun kind? => ?_
  split
  · exact mirrors_takePlace.bind fun _ => mirrors_pure rfl
  · exact mirrors_unexpected

theorem mirrors_endOfLine (close : Operator) : Mirrors (endOfLine close) (endOfLine close) := by
  refine mirrors_peekKind? fun kind? => ?_
  split
  · exact mirrors_take.bind fun _ => mirrors_pure rfl
  · exact mirrors_failHere
  · exact .ite (mirrors_pure rfl) mirrors_unexpected
  · exact mirrors_unexpected

theorem mirrors_endOfDecl : Mirrors endOfDecl endOfDecl := by
  refine mirrors_peekKind? fun kind? => ?_
  split
  · exact mirrors_take.bind fun _ => mirrors_pure rfl
  · exact mirrors_failHere
  · exact mirrors_pure rfl
  · exact mirrors_unexpected

/-! ## Loops -/

/-- With the same number of tokens for fuel, loops mirror each other if their steps do. -/
theorem mirrors_iterateWith {step step' : σ → Parser (Turn σ β)}
    (hstep : ∀ s, Mirrors (step s) (step' (bare s))) (fuel : List Token) (s : σ) :
    Mirrors (iterateWith step fuel s) (iterateWith step' (bare fuel) (bare s)) := by
  induction fuel generalizing s with
  | nil =>
    refine (hstep s).bind fun turn => ?_
    cases turn with
    | goOn s => exact mirrors_unexpected
    | stop b => exact mirrors_pure rfl
  | cons t fuel ih =>
    refine (hstep s).bind fun turn => ?_
    cases turn with
    | goOn s => exact ih s
    | stop b => exact mirrors_pure rfl

theorem mirrors_iterate {step step' : σ → Parser (Turn σ β)}
    (hstep : ∀ s, Mirrors (step s) (step' (bare s))) (s : σ) :
    Mirrors (iterate step s) (iterate step' (bare s)) :=
  mirrors_get.bind fun state => mirrors_iterateWith hstep state.tokens s

theorem mirrors_collectStep {done done' : Parser Bool} {item item' : Parser (α × Bool)}
    (hdone : Mirrors done done') (hitem : Mirrors item item') (items : Array α) :
    Mirrors (collectStep done item items) (collectStep done' item' (bare items)) := by
  refine hdone.bind fun isDone => .ite (mirrors_pure ?_) ?_
  · rw [bare_stop, toList_bare_array]
  · refine hitem.bind fun (value, last) => .ite (mirrors_pure ?_) (mirrors_pure ?_)
    · rw [bare_stop, push_bare, toList_bare_array]
    · rw [bare_goOn, push_bare]

theorem mirrors_collect {done done' : Parser Bool} {item item' : Parser (α × Bool)}
    (hdone : Mirrors done done') (hitem : Mirrors item item') :
    Mirrors (collect done item) (collect done' item') := by
  have hloop := mirrors_iterate (mirrors_collectStep hdone hitem) #[]
  rwa [bare_empty] at hloop

theorem mirrors_many {done done' : Parser Bool} {item item' : Parser α}
    (hdone : Mirrors done done') (hitem : Mirrors item item') :
    Mirrors (many done item) (many done' item') :=
  mirrors_collect hdone (hitem.bind fun _ => mirrors_pure rfl)

theorem mirrors_commaSeparated {item item' : Parser α} (hitem : Mirrors item item') :
    Mirrors (commaSeparated item) (commaSeparated item') := by
  refine hitem.bind fun first => Mirrors.bind (mirrors_many ?_ ?_) fun rest => mirrors_pure ?_
  · exact (mirrors_nextIsOp .comma).bind fun _ => mirrors_pure rfl
  · exact mirrors_takePlace.bind fun _ => hitem.bind fun _ => mirrors_pure rfl
  · rw [bare_pair, bare_cons, map_bare (f := Prod.snd) fun _ => rfl,
      map_bare (f := Prod.fst) fun _ => rfl]

end Parser

end GoTrace
