import GoTrace.Proofs.Grammar.Ending
import GoTrace.Proofs.Token.Stream

/-!
# Parsing from a stream

The rules of the grammar read a list of tokens. Here their programs are run on a stream instead, and
what is not taken apart further becomes requests (`Atom.onStream`): a look at the next tokens asks for
them one by one, a token is taken by consuming it, and the stream says itself whether it is at its
end. So the source has to give out a token when a rule looks at it.

A program does on a stream what its parser does on the list of the tokens to come
(`StreamParser.Agrees`). At the bottom this holds because a look is shown as many tokens as it sees,
and because the token that is consumed is the first of the list. Sequences keep it, and so do loops:
a turn that goes on takes a token, so the fuel of neither loop runs out. Whether the tokens are made
while they are read or were made before is therefore the same (`TokenStream.parse_eq`).
-/

namespace GoTrace

open GoTrace.Parser

variable {σ : Type}

/-- The stream that is read, and what is kept of the tokens already taken. -/
structure StreamState (σ : Type) where
  /-- The stream that is read. -/
  stream : TokenStream σ
  /-- The comments in front of the tokens taken. -/
  comments : Array Comment
  /-- The end of the last token taken. -/
  lastStop : Offset

/-- What a reader of a list has instead, with the tokens that are still to come. -/
def StreamState.toList [FiniteSource σ] (st : StreamState σ) : ParseState :=
  ⟨st.stream.toList, st.comments, st.lastStop⟩

/-- A reader of a stream. -/
abbrev StreamParser (σ : Type) := ReaderT ParseContext (StateT (StreamState σ) (Except ParseError))

namespace StreamParser

variable {α β τ : Type} [FiniteSource σ]

/-! ## Reading a stream -/

/-- Asks the stream, and goes on with the stream behind the answer. -/
def ask (request : TokenStream σ → α × TokenStream σ) : StreamParser σ α :=
  modifyGet fun st =>
    let (answer, stream) := request st.stream
    (answer, { st with stream })

/-- The next `n` tokens, or as many as there are. -/
def nextTokens : Nat → StreamParser σ (List Token)
  | 0 => return []
  | n + 1 => return (← nextTokens n) ++ (← ask (·.peekNth n)).toList

/-- What a parser of lists returns when it is shown only these tokens. It takes none of them. -/
def shown (tokens : List Token) (p : Parser α) : StreamParser σ α :=
  fun ctx st =>
    (fun result => (result.1, st)) <$> (p.run ctx).run ⟨tokens, st.comments, st.lastStop⟩

/-- What a parser of lists returns when it is shown only the next `n` tokens. -/
def look (n : Nat) (p : Parser α) : StreamParser σ α := do shown (← nextTokens n) p

/-- Takes the next token. -/
def take : StreamParser σ Token := do
  match ← ask TokenStream.consume with
  | none => throw ⟨.unexpectedEnd .moreInput, .empty (← get).lastStop⟩
  | some token =>
    match token.kind with
    | .error message => throw ⟨.badToken message, token.span⟩
    | _ =>
      modify fun st =>
        { st with comments := st.comments ++ token.comments, lastStop := token.span.stop }
      return token

/-- Repeats `step` until it stops, but for at most one step more than `fuel`. -/
def iterateWith (step : τ → StreamParser σ (Turn τ β)) (fuel : Nat) (s : τ) : StreamParser σ β := do
  match ← step s with
  | .goOn s =>
    match fuel with
    | 0 => throw ⟨.unexpectedEnd .moreInput, .empty (← get).lastStop⟩
    | fuel + 1 => iterateWith step fuel s
  | .stop b => return b

/-- Repeats `step` from `s` on until it stops. The fuel is enough for all tokens to come. -/
def iterate (step : τ → StreamParser σ (Turn τ β)) (s : τ) : StreamParser σ β := do
  iterateWith step (← get).stream.bound s

/-! ## Reading the list of the stream -/

/-- On the list, `p` does what `q` does on the stream. -/
def AgreesAt (q : StreamParser σ α) (p : Parser α) (ctx : ParseContext) (st : StreamState σ) : Prop :=
  (p.run ctx).run st.toList = Prod.map id StreamState.toList <$> (q.run ctx).run st

/-- The same in all states. -/
def Agrees (q : StreamParser σ α) (p : Parser α) : Prop := ∀ ctx st, q.AgreesAt p ctx st

variable {q : StreamParser σ α} {p : Parser α} {g : α → StreamParser σ β} {f : α → Parser β}
  {ctx : ParseContext} {st : StreamState σ}

/-- What is returned on the stream is returned on the list. -/
theorem AgreesAt.yields {a : α} {st' : StreamState σ} (h : q.AgreesAt p ctx st)
    (hrun : (q.run ctx).run st = .ok (a, st')) : p.Yields ctx st.toList a st'.toList := by
  rw [AgreesAt, hrun] at h
  exact h

theorem AgreesAt.bind (hq : q.AgreesAt p ctx st)
    (hg : ∀ {a st'}, (q.run ctx).run st = .ok (a, st') → (g a).AgreesAt (f a) ctx st') :
    (q >>= g).AgreesAt (p >>= f) ctx st := by
  rw [AgreesAt, ReaderT.run_bind, StateT.run_bind, ReaderT.run_bind, StateT.run_bind, hq]
  cases h : (q.run ctx).run st with
  | ok result => exact hg h
  | error e => rfl

theorem Agrees.withLiterals {allowed : Bool} (h : q.Agrees p) :
    Agrees (withReader (fun _ => ⟨allowed⟩) q : StreamParser σ α) (Parser.withLiterals allowed p) :=
  fun _ st => h ⟨allowed⟩ st

/-- The next tokens are those of the list, which stays as it is. -/
theorem run_nextTokens (n : Nat) (ctx : ParseContext) (st : StreamState σ) :
    ∃ st', ((nextTokens n).run ctx).run st = .ok (st.toList.tokens.take n, st') ∧
      st'.toList = st.toList := by
  induction n with
  | zero => exact ⟨st, rfl, rfl⟩
  | succ n ih =>
    obtain ⟨st₁, hrun, hst₁⟩ := ih
    have hnth : (st₁.stream.peekNth n).1 = st.toList.tokens[n]? := by
      rw [st₁.stream.peekNth_fst, ← hst₁]
      rfl
    refine ⟨{ st₁ with stream := (st₁.stream.peekNth n).2 }, ?_, ?_⟩
    · rw [nextTokens, ReaderT.run_bind, StateT.run_bind, hrun, List.take_add_one, ← hnth]
      rfl
    · rw [← hst₁, StreamState.toList, st₁.stream.toList_peekNth]
      rfl

theorem agrees_look {n : Nat} (h : p.Sees n) : (look n p : StreamParser σ α).Agrees p := by
  intro ctx st
  obtain ⟨st', hrun, hst'⟩ := run_nextTokens n ctx st
  rw [AgreesAt, h ctx st.toList, look, ReaderT.run_bind, StateT.run_bind, hrun, ← hst']
  change _ = _ <$> (fun result => (result.1, st')) <$> (p.run ctx).run _
  rw [← comp_map]
  rfl

theorem agrees_atEnd : (ask TokenStream.isAtEnd : StreamParser σ Bool).Agrees atEnd := by
  intro ctx st
  have hend : st.toList.nextKind?.all (· == .eof) = st.stream.isAtEnd.1 := by
    rw [st.stream.isAtEnd_fst, ParseState.nextKind?, Option.all_map, List.head?_eq_getElem?]
    rfl
  rw [AgreesAt, peeks_atEnd ctx]
  dsimp only
  rw [hend, StreamState.toList, ← st.stream.toList_isAtEnd]
  rfl

theorem agrees_take : (take : StreamParser σ Token).Agrees Parser.take := by
  rintro ctx ⟨s, comments, lastStop⟩
  obtain ⟨hgiven, hrest⟩ := s.consume_eq
  have hask : ((ask TokenStream.consume).run ctx).run ⟨s, comments, lastStop⟩ =
      .ok (s.toList[0]?, ⟨s.consume.2, comments, lastStop⟩) := by
    rw [← hgiven]
    rfl
  rw [AgreesAt, take, ReaderT.run_bind, StateT.run_bind, hask, StreamState.toList]
  cases htokens : s.toList with
  | nil => rfl
  | cons t rest =>
    rw [htokens, List.tail_cons] at hrest
    subst hrest
    obtain ⟨kind, trivia, span⟩ := t
    cases kind <;> rfl

/-! ## Loops -/

/-- The loops take the same turns. Neither runs out of fuel, as a turn that goes on takes a token and
there is fuel for every token. -/
theorem agreesAt_iterateWith {step : τ → StreamParser σ (Turn τ β)} {turn : τ → Parser (Turn τ β)}
    (hstep : ∀ s, (step s).Agrees (turn s))
    (hless : ∀ {ctx s s' st st'}, (turn s).Yields ctx st (.goOn s') st' →
      st'.tokens.length < st.tokens.length) {n : Nat} {fuel : List Token} {s : τ}
    (hn : st.toList.tokens.length ≤ n) (hfuel : st.toList.tokens.length ≤ fuel.length) :
    (iterateWith step n s).AgreesAt (Parser.iterateWith turn fuel s) ctx st := by
  have hgoOn {s s' : τ} {st st' : StreamState σ}
      (h : ((step s).run ctx).run st = .ok (.goOn s', st')) :
      st'.toList.tokens.length < st.toList.tokens.length := hless ((hstep s ctx st).yields h)
  induction fuel generalizing n s st with
  | nil =>
    rw [iterateWith, Parser.iterateWith]
    refine (hstep s ctx st).bind fun {outcome st'} h => ?_
    cases outcome with
    | goOn s' => exact absurd ((hgoOn h).trans_le hfuel) (Nat.not_lt_zero _)
    | stop b => rfl
  | cons _ fuel ih =>
    rw [iterateWith, Parser.iterateWith]
    refine (hstep s ctx st).bind fun {outcome st'} h => ?_
    cases outcome with
    | goOn s' =>
      cases n with
      | zero => exact absurd ((hgoOn h).trans_le hn) (Nat.not_lt_zero _)
      | succ n =>
        exact ih (Nat.le_of_lt_succ ((hgoOn h).trans_le hn))
          (Nat.le_of_lt_succ ((hgoOn h).trans_le hfuel))
    | stop b => rfl

theorem agrees_iterate {step : τ → StreamParser σ (Turn τ β)} {turn : τ → Parser (Turn τ β)}
    (hstep : ∀ s, (step s).Agrees (turn s))
    (hless : ∀ {ctx s s' st st'}, (turn s).Yields ctx st (.goOn s') st' →
      st'.tokens.length < st.tokens.length) (s : τ) :
    (iterate step s).Agrees (Parser.iterate turn s) :=
  fun _ st => agreesAt_iterateWith hstep hless st.stream.length_toList_le (Nat.le_refl _)

end StreamParser

/-! ## Programs -/

section

open StreamParser

variable {α : Type} {d n : Nat} {p : Parser α} [FiniteSource σ]

/-- What is not taken apart further, on a stream. -/
def Atom.onStream {α : Type} {p : Parser α} : Atom p → StreamParser σ α
  | @look _ p n _ => StreamParser.look n p
  | .atEnd => ask TokenStream.isAtEnd
  | .take => StreamParser.take

/-- A program on a stream, where `deeper` are the rules that go one level deeper. -/
def Program.onStreamWith (deeper : ∀ {α : Type}, NestedRule α → StreamParser σ α) {d n : Nat}
    {α : Type} {p : Parser α} : Program d n p → StreamParser σ α
  | .atom h => h.onStream
  | .seq first rest => do (rest (← first.onStreamWith deeper)).onStreamWith deeper
  | .call body => body.onStreamWith deeper
  | .withLiterals allowed body => withReader (fun _ => ⟨allowed⟩) (body.onStreamWith deeper)
  | .loop _ s steps _ => StreamParser.iterate (fun s => (steps s).onStreamWith deeper) s
  | .nested r => deeper r

/-- A rule that goes one level deeper, on a stream. -/
def NestedRule.onStream : (depth : Nat) → {α : Type} → NestedRule α → StreamParser σ α
  | 0, _, r => StreamParser.look 1 (r.parser (.level 0))
  | d + 1, _, r => (r.body d).onStreamWith (NestedRule.onStream d)

/-- A program on a stream. -/
def Program.onStream (program : Program d n p) : StreamParser σ α :=
  program.onStreamWith (NestedRule.onStream d)

theorem Atom.agrees (h : Atom p) : (h.onStream : StreamParser σ α).Agrees p := by
  cases h with
  | look n h => exact agrees_look h
  | atEnd => exact agrees_atEnd
  | take => exact agrees_take

/-- Along a program, as far as the rules go that go one level deeper. -/
theorem Program.agrees_onStreamWith
    {deeper : ∀ {α : Type}, NestedRule α → StreamParser σ α}
    (hdeeper : ∀ {α : Type} (r : NestedRule α), (deeper r).Agrees (r.parser (.level d)))
    (program : Program d n p) : (program.onStreamWith deeper).Agrees p := by
  induction program with
  | atom h => exact h.agrees
  | seq first rest hfirst hrest =>
    intro ctx st
    exact (hfirst ctx st).bind fun _ => hrest _ ctx _
  | call body h => exact h
  | withLiterals allowed body h => exact h.withLiterals
  | loop exit s steps moves h => exact agrees_iterate h (length_lt_of_goOn moves) s
  | nested r => exact hdeeper r

theorem NestedRule.agrees_onStream (d : Nat) (r : NestedRule α) :
    (r.onStream d : StreamParser σ α).Agrees (r.parser (.level d)) := by
  induction d generalizing α with
  | zero => exact agrees_look r.sees_refusing
  | succ d ih => exact (r.body d).agrees_onStreamWith ih

/-- **On a stream, a program does what its parser does on the list of the tokens to come.** -/
theorem Program.agrees_onStream (program : Program d n p) :
    (program.onStream : StreamParser σ α).Agrees p :=
  program.agrees_onStreamWith (NestedRule.agrees_onStream d)

end

/-! ## Files -/

namespace TokenStream

variable [FiniteSource σ]

/-- The file that a stream spells, or the first reason why it spells none. -/
def parse (s : TokenStream σ) : Except ParseError File :=
  match (fileProgram.onStream.run ⟨true⟩).run ⟨s, #[], .zero⟩ with
  | .ok (file, _) => .ok file
  | .error e => .error e

/-- A stream spells what the list of its tokens spells. -/
theorem parse_eq (s : TokenStream σ) : s.parse = parseTokens s.toList := by
  have hagrees := fileProgram.agrees_onStream ⟨true⟩ ⟨s, #[], .zero⟩
  rw [StreamParser.AgreesAt, StreamState.toList] at hagrees
  rw [parse, parseTokens, hagrees]
  cases (fileProgram.onStream.run ⟨true⟩).run ⟨s, #[], .zero⟩ <;> rfl

/-- **A stream is the list of its tokens.** Whatever is asked of a stream over a source that ends, and
in whatever order, it answers as the plain list of the tokens of the source, of which as many have
been consumed; and what it is parsed to is what this list is parsed to. The tokens of a list are the
list, and those of a lexer the tokens of its text. So a text is parsed to the same file, or fails for
the same reason at the same place, whether its tokens are made while they are read or before. -/
theorem refines_list :
    (∀ {σ : Type} [FiniteSource σ] (source : σ),
      (∀ requests, answers answer (ofSource source) requests =
        answers (Request.onList (FiniteSource.toList source)) 0 requests) ∧
      (ofSource source).parse = parseTokens (FiniteSource.toList source)) ∧
    (∀ ts : List Token, FiniteSource.toList ts = ts) ∧
    (∀ l : Lexer, FiniteSource.toList l = l.tokens) ∧
    ∀ text, (ofSource (Lexer.ofString text)).parse = GoTrace.parse text ∧
      (ofSource (tokens text)).parse = GoTrace.parse text := by
  refine ⟨fun source => ⟨answers_eq rfl, parse_eq _⟩, FiniteSource.toList_list,
    FiniteSource.toList_lexer, fun text => ⟨?_, ?_⟩⟩
  · rw [parse_eq, toList_ofSource, FiniteSource.toList_lexer]
    rfl
  · rw [parse_eq, toList_ofSource, FiniteSource.toList_list]
    rfl

end TokenStream

end GoTrace
