import GoTrace.Proofs.Grammar.Reading

/-!
# What a parser that fails blames

A parser fails with a fault at a span. The span is that of the next token, of the end of the last
token where none is left, or of an expression or statement that has been read before: `Blamed` lists
these cases. A parser that is given the last tokens of a list takes tokens off the front of them, or
fails at such a span; `Parser.Blames` says so of a parser, and is inherited by sequences, choices
and loops. Only what looks at a tree to blame it has to know that the tree has been read.
-/

namespace GoTrace

/-- From the state `st₀` the state `st` is reached by taking tokens. -/
def ParseState.Reaches (st₀ st : ParseState) : Prop := ∃ ts, Passes st₀ ts st

/-- What may be blamed when a parser fails that began in the state `st₀`. -/
inductive Blamed (st₀ : ParseState) : Span → Prop
  /-- A token. -/
  | token {t : Token} (h : t ∈ st₀.tokens) : Blamed st₀ t.span
  /-- The end of the last token, when all are taken. -/
  | last {st : ParseState} (h : st₀.Reaches st) (hnil : st.tokens = []) :
      Blamed st₀ (.empty st.lastStop)
  /-- An expression, which may be a type or a name, behind some tokens. -/
  | expr {x : Expr} {st st' : ParseState} (h : st₀.Reaches st) (hreads : x.layout.Reads st st') :
      Blamed st₀ x.span
  /-- A statement behind some tokens. -/
  | stmt {x : Stmt} {st st' : ParseState} (h : st₀.Reaches st) (hreads : x.layout.Reads st st') :
      Blamed st₀ x.span

section

variable {st₀ st st' : ParseState}

theorem ParseState.reaches_self : st.Reaches st := ⟨[], .nil⟩

/-- The tokens that are left are among those that there were. -/
theorem ParseState.Reaches.subset (h : st₀.Reaches st) : st.tokens ⊆ st₀.tokens := by
  obtain ⟨ts, hts⟩ := h
  rw [hts.tokens]
  exact List.subset_append_right ts _

/-- The next token may be blamed, or the end of the last one if none is left. -/
theorem ParseState.Reaches.blamed_next (h : st₀.Reaches st) :
    Blamed st₀ ((st.tokens.head?.map (·.span)).getD (.empty st.lastStop)) := by
  cases htokens : st.tokens with
  | nil => exact .last h htokens
  | cons t ts => exact .token (h.subset (htokens ▸ List.mem_cons_self))

/-! ### Taking more tokens -/

theorem Passes.reaches {ts : List Token} (h : Passes st ts st') (hst : st₀.Reaches st) :
    st₀.Reaches st' := by
  obtain ⟨front, hfront⟩ := hst
  exact ⟨front ++ ts, hfront.append h⟩

theorem Takes.reaches {t : Token} (h : Takes st t st') : st₀.Reaches st → st₀.Reaches st' :=
  Passes.reaches (.cons h .nil)

theorem MarksOpt.reaches {kind : TokenKind} {place? : Option Offset}
    (h : MarksOpt kind place? st st') (hst : st₀.Reaches st) : st₀.Reaches st' := by
  cases place? with
  | none => exact h ▸ hst
  | some place =>
    obtain ⟨t, ht, -, -⟩ := h
    exact ht.reaches hst

theorem Layout.Reads.reaches {l : Layout} (h : l.Reads st st') (hst : st₀.Reaches st) :
    st₀.Reaches st' := by
  obtain ⟨-, rows, -, hrows⟩ := h
  obtain ⟨ts, hts, -⟩ := hrows.passes
  exact hts.reaches hst

theorem ReadsOpt.reaches {l? : Option Layout} (h : ReadsOpt l? st st') (hst : st₀.Reaches st) :
    st₀.Reaches st' := by
  cases l? with
  | none => exact h ▸ hst
  | some l => exact Layout.Reads.reaches h hst

end

namespace Parser

variable {α β σ : Type} {p : Parser α} {f : α → Parser β} {ctx : ParseContext}
  {st st₀ : ParseState} {e : ParseError}

/-- The parser fails in the state `st`. -/
def Fails (p : Parser α) (ctx : ParseContext) (st : ParseState) (e : ParseError) : Prop :=
  (p.run ctx).run st = .error e

/-- A sequence fails in its first part or, behind what that yields, in its second. -/
theorem fails_bind : (p >>= f).Fails ctx st e ↔
    p.Fails ctx st e ∨ ∃ a st', p.Yields ctx st a st' ∧ (f a).Fails ctx st' e := by
  rw [Fails, Fails, ReaderT.run_bind, StateT.run_bind]
  simp only [Yields, Fails]
  rcases (p.run ctx).run st with e' | ⟨a, st'⟩
  · simp [bind, Except.bind]
  · simp [bind, Except.bind, and_assoc]

theorem not_fails_pure {a : α} : ¬(pure a : Parser α).Fails ctx st e :=
  fun h => nomatch (h : Except.ok (a, st) = .error e)

theorem eq_of_fails_throw {e' : ParseError} (h : (throw e' : Parser α).Fails ctx st e) : e' = e :=
  Except.error.inj h

/-- In the state `st` the parser takes tokens off the front, or fails at what may be blamed. -/
structure BlamesAt (st₀ : ParseState) (p : Parser α) (st : ParseState) : Prop where
  reaches : ∀ {ctx a st'}, p.Yields ctx st a st' → st₀.Reaches st'
  blamed : ∀ {ctx e}, p.Fails ctx st e → Blamed st₀ e.span

/-- The same in all states that are reached from `st₀`. -/
class Blames (st₀ : ParseState) (p : Parser α) : Prop where
  blamesAt : ∀ {st}, st₀.Reaches st → BlamesAt st₀ p st

/-! ## Sequences and choices -/

instance {a : α} : Blames st₀ (pure a : Parser α) where
  blamesAt hst := ⟨fun h => (yields_pure.1 h).2 ▸ hst, fun h => absurd h not_fails_pure⟩

/-- A sequence blames what its parts blame; the second goes on behind what the first yields. -/
theorem BlamesAt.bind (hp : BlamesAt st₀ p st) (hf : ∀ {ctx a st'}, st₀.Reaches st' →
    p.Yields ctx st a st' → BlamesAt st₀ (f a) st') : BlamesAt st₀ (p >>= f) st where
  reaches h := by
    obtain ⟨a, st', ha, hb⟩ := yields_bind.1 h
    exact (hf (hp.reaches ha) ha).reaches hb
  blamed h := by
    rcases fails_bind.1 h with h | ⟨a, st', ha, h⟩
    · exact hp.blamed h
    · exact (hf (hp.reaches ha) ha).blamed h

/-- The same for a second part that does not depend on the state. -/
theorem Blames.bind_of_yields (hp : Blames st₀ p) (hf : ∀ {ctx st a st'}, st₀.Reaches st →
    p.Yields ctx st a st' → Blames st₀ (f a)) : Blames st₀ (p >>= f) where
  blamesAt hst := (hp.blamesAt hst).bind fun hst' ha => (hf hst ha).blamesAt hst'

/-- The same whatever the first part yields. -/
theorem blames_bind [hp : Blames st₀ p] (hf : ∀ a, Blames st₀ (f a)) : Blames st₀ (p >>= f) :=
  hp.bind_of_yields fun _ _ => hf _

instance [Blames st₀ p] [h : ∀ a, Blames st₀ (f a)] : Blames st₀ (p >>= f) := blames_bind h

instance [Blames st₀ p] {g : α → β} : Blames st₀ (g <$> p) := by
  rw [← bind_pure_comp]
  infer_instance

instance {c : Prop} [Decidable c] {q : Parser α} [Blames st₀ p] [Blames st₀ q] :
    Blames st₀ (if c then p else q) := by
  split <;> infer_instance

instance {allowed : Bool} [h : Blames st₀ p] : Blames st₀ (withLiterals allowed p) where
  blamesAt hst :=
    ⟨fun hyields => (h.blamesAt hst).reaches (yields_withLiterals.1 hyields),
      fun (hfails : p.Fails ⟨allowed⟩ _ _) => (h.blamesAt hst).blamed hfails⟩

/-! ## Looking ahead -/

/-- A look ahead fails nowhere. -/
theorem Peeks.blames {v : ParseState → α} (h : p.Peeks v) : Blames st₀ p where
  blamesAt hst :=
    ⟨fun hyields => ((yields_of_peeks h).1 hyields).2 ▸ hst,
      fun hfails => nomatch (h _ _).symm.trans hfails⟩

instance : Blames st₀ peekKind? := peeks_peekKind?.blames

instance : Blames st₀ peekSecondKind? := peeks_peekSecondKind?.blames

instance : Blames st₀ peekOp? := peeks_peekOp?.blames

instance : Blames st₀ peekKeyword? := peeks_peekKeyword?.blames

instance : Blames st₀ peekSpan := peeks_peekSpan.blames

instance {op : Operator} : Blames st₀ (nextIsOp op) := (peeks_nextIsOp op).blames

instance {word : Keyword} : Blames st₀ (nextIsKeyword word) := (peeks_nextIsKeyword word).blames

instance : Blames st₀ nextIsIdent := peeks_nextIsIdent.blames

instance : Blames st₀ nextIsString := peeks_nextIsString.blames

instance : Blames st₀ nextIsWrittenSemicolon := peeks_nextIsWrittenSemicolon.blames

instance : Blames st₀ atEnd := peeks_atEnd.blames

instance : Blames st₀ (get : Parser ParseState) where
  blamesAt hst :=
    ⟨fun h => (yields_get.1 h).2 ▸ hst, fun h => nomatch (h : Except.ok (_, _) = .error _)⟩

instance : Blames st₀ (read : Parser ParseContext) where
  blamesAt hst :=
    ⟨fun h => (yields_read.1 h).2 ▸ hst, fun h => nomatch (h : Except.ok (_, _) = .error _)⟩

/-! ## Failing -/

theorem blames_throw {e : ParseError} (h : Blamed st₀ e.span) :
    Blames st₀ (throw e : Parser α) where
  blamesAt _ := ⟨fun hyields => absurd hyields not_yields_throw,
    fun hfails => eq_of_fails_throw hfails ▸ h⟩

theorem blames_failAt {span : Span} {fault : ParseFault} (h : Blamed st₀ span) :
    Blames st₀ (failAt span fault : Parser α) := blames_throw h

instance {fault : ParseFault} : Blames st₀ (failHere fault : Parser α) where
  blamesAt hst := by
    refine .bind (Blames.blamesAt hst) fun hst' hspan => ?_
    obtain ⟨rfl, rfl⟩ := (yields_of_peeks peeks_peekSpan).1 hspan
    exact (blames_failAt hst.blamed_next).blamesAt hst

instance {expected : Expectation} : Blames st₀ (unexpected expected : Parser α) where
  blamesAt hst := by
    refine .bind (Blames.blamesAt hst) fun hst' hget => ?_
    obtain ⟨rfl, rfl⟩ := yields_get.1 hget
    have hnext := hst.blamed_next
    split
    · rename_i t ht
      rw [ht] at hnext
      exact (blames_failAt hnext).blamesAt hst
    · rename_i hnone
      rw [hnone] at hnext
      exact (blames_failAt hnext).blamesAt hst

/-- What is worked out without tokens fails at what may be blamed if it is not worked out. -/
theorem blames_fromExcept {x : Except ParseError α} (h : ∀ e, x = .error e → Blamed st₀ e.span) :
    Blames st₀ (fromExcept x) := by
  cases x with
  | ok a => exact inferInstanceAs (Blames st₀ (pure a))
  | error e => exact blames_throw (h e rfl)

/-! ## Taking tokens -/

instance : Blames st₀ take where
  blamesAt hst := by
    refine ⟨fun hyields => (takes_of_take hyields).reaches hst, fun hfails => ?_⟩
    rcases fails_bind.1 hfails with hfails | ⟨state, st', hget, hfails⟩
    · exact (Blames.blamesAt hst).blamed hfails
    obtain ⟨rfl, rfl⟩ := yields_get.1 hget
    split at hfails
    · exact (Blames.blamesAt hst).blamed hfails
    rename_i t ts htokens
    split at hfails
    · have ht := hst.subset (htokens ▸ List.mem_cons_self)
      exact ((blames_failAt (.token ht)).blamesAt hst).blamed hfails
    · exact nomatch (hfails : Except.ok (_, _) = .error _)

instance : Blames st₀ takePlace := by
  unfold takePlace
  infer_instance

instance {op : Operator} : Blames st₀ (takeOp? op) := by
  unfold takeOp?
  infer_instance

instance {op : Operator} : Blames st₀ (expectOp op) := by
  unfold expectOp
  infer_instance

instance {word : Keyword} : Blames st₀ (expectKeyword word) := by
  unfold expectKeyword
  infer_instance

instance : Blames st₀ expectWrittenSemicolon := by
  unfold expectWrittenSemicolon
  infer_instance

instance : Blames st₀ expectIdent := by
  refine blames_bind fun kind? => ?_
  split <;> infer_instance

instance : Blames st₀ expectLiteral := by
  refine blames_bind fun kind? => ?_
  split <;> infer_instance

instance {close : Operator} : Blames st₀ (endOfLine close) := by
  refine blames_bind fun kind? => ?_
  split <;> infer_instance

instance : Blames st₀ endOfDecl := by
  refine blames_bind fun kind? => ?_
  split <;> infer_instance

/-! ## Loops -/

instance {step : σ → Parser (Turn σ β)} {s : σ} [h : ∀ s, Blames st₀ (step s)] :
    Blames st₀ (iterate step s) := by
  refine blames_bind fun state => ?_
  -- the fuel does not matter: a loop that runs out of it blames the next token
  induction state.tokens generalizing s with
  | nil =>
    refine blames_bind fun turn => ?_
    cases turn <;> infer_instance
  | cons t fuel ih =>
    refine blames_bind fun turn => ?_
    cases turn with
    | goOn s => exact ih
    | stop b => infer_instance

instance {done : Parser Bool} {item : Parser (α × Bool)} [Blames st₀ done] [Blames st₀ item] :
    Blames st₀ (collect done item) := by
  have hstep : ∀ items, Blames st₀ (collectStep done item items) := fun items => by
    unfold collectStep
    infer_instance
  unfold collect
  infer_instance

instance {done : Parser Bool} {item : Parser α} [Blames st₀ done] [Blames st₀ item] :
    Blames st₀ (many done item) := by
  unfold many
  infer_instance

instance {item : Parser α} [Blames st₀ item] : Blames st₀ (commaSeparated item) := by
  unfold commaSeparated
  infer_instance

end Parser

end GoTrace
