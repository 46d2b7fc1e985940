import GoTrace.Proofs.Token.Sequence
import GoTrace.Token.Stream

/-!
# Streams answer as lists

A stream keeps the tokens that were looked at but not given out, and takes more from its source when
it is asked for them. What is still to come is a list, the tokens that are kept and then those of
the source (`TokenStream.toList`). A look ahead shows what stands in this list and leaves it as it
is, however far it goes; to consume takes the first token off. So requests in any order are answered
as by a plain list of which the first few tokens have been consumed (`TokenStream.answers_eq`).

The tokens of a source are a list because sources end: a bound on the tokens to come goes down with
every token, for a lexer the one that ends its recursion, for a list its length.
-/

namespace GoTrace

/-! ## Sources that end -/

/-- A source of finitely many tokens: each brings a bound on those still to come down. -/
class FiniteSource (σ : Type) extends TokenSource σ where
  /-- A bound on the number of tokens still to come. -/
  bound : σ → Nat
  /-- Taking a token brings the bound down. -/
  bound_lt {source rest : σ} {t : Token} :
    next? source = some (t, rest) → bound rest < bound source

instance : FiniteSource Lexer where
  bound := Lexer.bound
  bound_lt := Lexer.bound_next?

instance : FiniteSource (List Token) where
  bound := List.length
  bound_lt {source rest t} h := by
    cases source with
    | nil => cases h
    | cons =>
      cases h
      exact Nat.lt_succ_self rest.length

namespace FiniteSource

variable {σ : Type} [FiniteSource σ]

/-- The tokens still to come. -/
def toList (source : σ) : List Token :=
  match _h : TokenSource.next? source with
  | none => []
  | some (t, rest) => t :: toList rest
termination_by bound source
decreasing_by exact bound_lt _h

theorem toList_of_none {source : σ} (h : TokenSource.next? source = none) : toList source = [] := by
  rw [toList]
  split <;> simp_all

theorem toList_of_some {source rest : σ} {t : Token}
    (h : TokenSource.next? source = some (t, rest)) : toList source = t :: toList rest := by
  rw [toList]
  split <;> simp_all

/-- No more tokens come than the bound says. -/
theorem length_toList_le (source : σ) : (toList source).length ≤ bound source := by
  fun_induction toList source with
  | case1 => exact Nat.zero_le _
  | case2 source t rest h ih => exact Nat.succ_le_of_lt (ih.trans_lt (bound_lt h))

/-- A list gives out its members. -/
theorem toList_list (ts : List Token) : toList ts = ts := by
  induction ts with
  | nil => exact toList_of_none rfl
  | cons t ts ih =>
    have hnext : TokenSource.next? (t :: ts) = some (t, ts) := rfl
    rw [toList_of_some hnext, ih]

/-- A lexer gives out the tokens of its text. -/
theorem toList_lexer (l : Lexer) : toList l = l.tokens := by
  fun_induction Lexer.tokens l with
  | case1 l h => exact toList_of_none h
  | case2 l t rest h ih =>
    have hnext : TokenSource.next? l = some (t, rest) := h
    rw [toList_of_some hnext, ih]

end FiniteSource

/-! ## What is still to come -/

namespace TokenStream

variable {σ : Type} [FiniteSource σ]

/-- The tokens that are still to be given out. -/
def toList (s : TokenStream σ) : List Token := s.ahead ++ FiniteSource.toList s.source

/-- A stream that has not been used gives out the tokens of its source. -/
theorem toList_ofSource (source : σ) : (ofSource source).toList = FiniteSource.toList source := rfl

/-- A token that is taken from the source is not lost. -/
theorem toList_keep {s : TokenStream σ} {rest : σ} {t : Token}
    (h : TokenSource.next? s.source = some (t, rest)) :
    (⟨rest, s.ahead ++ [t]⟩ : TokenStream σ).toList = s.toList := by
  rw [toList, toList, FiniteSource.toList_of_some h, List.append_assoc, List.singleton_append]

theorem toList_load (n : Nat) (s : TokenStream σ) : (s.load n).toList = s.toList := by
  fun_induction load n s with
  | case1 => rfl
  | case2 => rfl
  | case3 n s t rest h ih => rw [ih, toList_keep h]

/-- Tokens are taken from the source until there are `n` more ahead, or all there are. -/
theorem ahead_load (n : Nat) (s : TokenStream σ) :
    (s.load n).ahead = s.toList.take (s.ahead.length + n) := by
  fun_induction load n s with
  | case1 s => rw [toList, Nat.add_zero, List.take_left]
  | case2 n s h =>
    rw [toList, FiniteSource.toList_of_none h, List.append_nil,
      List.take_of_length_le (Nat.le_add_right _ _)]
  | case3 n s t rest h ih =>
    rw [ih, toList_keep h, List.length_append, List.length_singleton, Nat.add_assoc, Nat.add_comm 1]

/-- A look ahead shows what stands in the list. -/
theorem peekNth_fst (s : TokenStream σ) (n : Nat) : (s.peekNth n).1 = s.toList[n]? := by
  change (s.load (n + 1 - s.ahead.length)).ahead[n]? = _
  rw [ahead_load, List.getElem?_take_of_lt (by omega)]

theorem toList_peekNth (s : TokenStream σ) (n : Nat) : (s.peekNth n).2.toList = s.toList :=
  toList_load _ s

/-- The stream is at the end if no token is left, or the next is the end of the text. -/
theorem isAtEnd_fst (s : TokenStream σ) : s.isAtEnd.1 = s.toList[0]?.all (·.kind == .eof) := by
  rw [← s.peekNth_fst 0]
  rfl

theorem toList_isAtEnd (s : TokenStream σ) : s.isAtEnd.2.toList = s.toList := s.toList_peekNth 0

/-- The first token of the list is given out, and the others are left. -/
theorem consume_eq (s : TokenStream σ) :
    s.consume.1 = s.toList[0]? ∧ s.consume.2.toList = s.toList.tail := by
  have hlist := s.toList_load (1 - s.ahead.length)
  have hahead := s.ahead_load (1 - s.ahead.length)
  rw [consume]
  generalize s.load (1 - s.ahead.length) = loaded at hlist hahead ⊢
  obtain ⟨source, _ | ⟨t, rest⟩⟩ := loaded
  · -- a token would be ahead if there were one
    obtain hzero | hnil := List.take_eq_nil_iff.1 hahead.symm
    · omega
    · rw [hlist, hnil]
      exact ⟨rfl, rfl⟩
  · rw [← hlist]
    exact ⟨rfl, rfl⟩

/-- A bound on the number of tokens that are still to be given out. -/
def bound (s : TokenStream σ) : Nat := s.ahead.length + FiniteSource.bound s.source

theorem length_toList_le (s : TokenStream σ) : s.toList.length ≤ s.bound := by
  rw [toList, List.length_append]
  exact Nat.add_le_add_left (FiniteSource.length_toList_le _) _

/-! ## Requests -/

/-- What may be asked of a stream. -/
inductive Request
  | peek
  | peekNth (n : Nat)
  | isAtEnd
  | consume

/-- What is answered: a token, if there is one, or whether the end is reached. -/
inductive Answer
  | token (token? : Option Token)
  | atEnd (isAtEnd : Bool)
  deriving DecidableEq

/-- What a stream answers, and the stream behind the answer. -/
def answer (s : TokenStream σ) : Request → Answer × TokenStream σ
  | .peek => s.peek.map .token id
  | .peekNth n => (s.peekNth n).map .token id
  | .isAtEnd => s.isAtEnd.map .atEnd id
  | .consume => s.consume.map .token id

/-- What a plain list answers of which the first `i` tokens have been consumed, and how many have been
consumed behind the answer. -/
def Request.onList (tokens : List Token) (i : Nat) : Request → Answer × Nat
  | .peek => (.token tokens[i]?, i)
  | .peekNth n => (.token tokens[i + n]?, i)
  | .isAtEnd => (.atEnd (tokens[i]?.all (·.kind == .eof)), i)
  | .consume =>
    match tokens[i]? with
    | some t => (.token (some t), i + 1)
    | none => (.token none, i)

/-- The answers to one request after the other, beginning in the state `s`. -/
def answers {S : Type} (answer : S → Request → Answer × S) : S → List Request → List Answer
  | _, [] => []
  | s, request :: requests =>
    (answer s request).1 :: answers answer (answer s request).2 requests

/-- A stream that has the same tokens to come as a list answers as the list does, and has the same
tokens to come behind the answer. -/
theorem answer_of_toList {s : TokenStream σ} {tokens : List Token} {i : Nat}
    (h : s.toList = tokens.drop i) (request : Request) :
    (s.answer request).1 = (request.onList tokens i).1 ∧
      (s.answer request).2.toList = tokens.drop (request.onList tokens i).2 := by
  have hnth (n : Nat) : s.toList[n]? = tokens[i + n]? := by rw [h, List.getElem?_drop]
  cases request with
  | peek =>
    exact ⟨congrArg _ ((s.peekNth_fst 0).trans (hnth 0)), (s.toList_peekNth 0).trans h⟩
  | peekNth n =>
    exact ⟨congrArg _ ((s.peekNth_fst n).trans (hnth n)), (s.toList_peekNth n).trans h⟩
  | isAtEnd =>
    have hend := s.isAtEnd_fst
    rw [hnth 0] at hend
    exact ⟨congrArg _ hend, s.toList_isAtEnd.trans h⟩
  | consume =>
    obtain ⟨hgiven, hrest⟩ := s.consume_eq
    rw [hnth 0, Nat.add_zero] at hgiven
    rw [h, List.tail_drop] at hrest
    rw [answer, Request.onList]
    cases ht : tokens[i]? with
    | some t => exact ⟨congrArg _ (hgiven.trans ht), hrest⟩
    | none =>
      have hlength := List.getElem?_eq_none_iff.1 ht
      refine ⟨congrArg _ (hgiven.trans ht), hrest.trans ?_⟩
      rw [List.drop_of_length_le hlength, List.drop_of_length_le (Nat.le_succ_of_le hlength)]

/-- **A stream answers as a list**, whatever it is asked and in whatever order. -/
theorem answers_eq {s : TokenStream σ} {tokens : List Token} {i : Nat}
    (h : s.toList = tokens.drop i) (requests : List Request) :
    answers answer s requests = answers (Request.onList tokens) i requests := by
  induction requests generalizing s i with
  | nil => rfl
  | cons request requests ih =>
    obtain ⟨hgiven, hrest⟩ := answer_of_toList h request
    rw [answers, answers, hgiven, ih hrest]

-- a look past the end takes nothing away
example (a b : Token) :
    answers answer (ofSource [a, b]) [.peekNth 2, .consume, .peek, .consume, .consume] =
      [.token none, .token (some a), .token (some b), .token (some b), .token none] := by
  cbv

end TokenStream

end GoTrace
