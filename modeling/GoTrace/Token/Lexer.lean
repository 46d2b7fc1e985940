import GoTrace.Token.Lexeme

/-!
# Splitting a text into tokens

`Lexer.next?` takes the next token off a text, and `tokens` takes them all: blanks are passed over,
comments are put aside for the token behind them, and `Lexeme.ofChars` says what the text goes on
with. The last token, and no other, is the end of the text.

A text longer than the largest offset is refused: its only token, apart from the end, is an error.

**Why this ends.** Twice the number of characters left, and one more if a semicolon is due, goes
down with every token (`Lexer.bound_next?`): a token takes a character, except for an implicit
semicolon, and that is only given out when one is due and leaves none due.
-/

namespace GoTrace

/-- How far the splitting of a text has come. -/
inductive Lexer
  /-- The text is too long: nothing of it is read. -/
  | refused (size : Nat)
  /-- The characters `rest` are left, `offset` bytes are in front of them, and `due` says whether
  the token before them can end a statement. -/
  | reading (rest : List Char) (offset : Nat) (due : Bool)
  /-- The end has been given out. -/
  | finished

namespace Lexer

/-- The lexer in front of a whole text. -/
def ofString (text : String) : Lexer :=
  if text.utf8ByteSize ≤ maxOffset then reading text.toList 0 false
  else refused text.utf8ByteSize

/-- A comment takes a character. -/
theorem pos_of_comment {due : Bool} {cs : List Char} {kind : CommentKind} {n : Nat}
    (h : Lexeme.ofChars due cs = (.comment kind, n)) : 0 < n ∧ cs ≠ [] := by
  have := Lexeme.ofChars_advances due cs
  rwa [h] at this

/-- The next token of the text `rest`, and what is left behind it. The token carries the comments in
front of it. -/
def readFrom (rest : List Char) (offset : Nat) (due : Bool) : Token × Lexer :=
  let blanks := (rest.takeWhile (isBlank due)).length
  let cs := rest.drop blanks
  match _h : Lexeme.ofChars due cs with
  | (.comment kind, n) =>
    let text := String.ofList (cs.take n)
    let start := offset + blanks
    let stop := start + text.utf8ByteSize
    let (next, lexer) := readFrom (cs.drop n) stop due
    let comment := ⟨kind, text, ⟨Offset.ofNat start, Offset.ofNat stop⟩⟩
    ({ next with comments := comment :: next.comments }, lexer)
  | (.token kind, n) =>
    let start := offset + blanks
    let stop := start + (String.ofList (cs.take n)).utf8ByteSize
    let token := ⟨kind, [], ⟨Offset.ofNat start, Offset.ofNat stop⟩⟩
    (token, if kind = .eof then finished else reading (cs.drop n) stop kind.endsStatement)
termination_by rest.length
decreasing_by
  obtain ⟨hn, hcs⟩ := pos_of_comment _h
  have := List.length_pos_iff.2 hcs
  simp only [cs, List.length_drop] at this ⊢
  omega

/-- The next token and the lexer behind it, until the end has been given out. -/
def next? : Lexer → Option (Token × Lexer)
  | refused size =>
    let message := (LexError.tooLong size).message
    some (⟨.error message, [], Span.empty (Offset.ofNat size)⟩, reading [] size false)
  | reading rest offset due => some (readFrom rest offset due)
  | finished => none

/-- A bound on the number of tokens still to come. -/
def bound : Lexer → Nat
  | refused _ => 2
  | reading rest _ due => 2 * rest.length + (if due then 1 else 0) + 1
  | finished => 0

private theorem advances_of_token {due : Bool} {cs : List Char} {kind : TokenKind} {n : Nat}
    (h : Lexeme.ofChars due cs = (.token kind, n)) :
    kind = .semicolon true ∧ due = true ∨ kind = .eof ∨ 0 < n ∧ cs ≠ [] := by
  have := Lexeme.ofChars_advances due cs
  rw [h] at this
  unfold Lexeme.Advances at this
  split at this <;> simp_all

private theorem bound_readFrom (rest : List Char) (offset : Nat) (due : Bool) :
    (readFrom rest offset due).2.bound < (reading rest offset due).bound := by
  fun_induction readFrom rest offset due with
  | case1 rest offset blanks cs kind n h text start stop next lexer heq comment ih =>
    rw [heq] at ih
    refine Nat.lt_of_lt_of_le ih ?_
    simp only [bound, cs, List.length_drop]
    omega
  | case2 rest offset blanks cs kind n h start stop token =>
    dsimp only
    split
    · exact Nat.succ_pos _
    rcases advances_of_token h with ⟨rfl, rfl⟩ | rfl | ⟨hn, hcs⟩
    · simp only [bound, TokenKind.endsStatement, cs, List.length_drop]
      simp
      omega
    · contradiction
    · have := List.length_pos_iff.2 hcs
      simp only [bound, cs, List.length_drop] at this ⊢
      split <;> split <;> omega

/-- Taking a token brings the bound down. -/
theorem bound_next? {l l' : Lexer} {t : Token} (h : l.next? = some (t, l')) :
    l'.bound < l.bound := by
  cases l with
  | refused size =>
    simp only [next?, Option.some.injEq, Prod.mk.injEq] at h
    rw [← h.2]
    exact Nat.lt_succ_self _
  | reading rest offset due =>
    simp only [next?, Option.some.injEq] at h
    have := bound_readFrom rest offset due
    rwa [h] at this
  | finished => simp [next?] at h

/-- The tokens still to come. -/
def tokens (l : Lexer) : List Token :=
  match _h : l.next? with
  | none => []
  | some (token, rest) => token :: rest.tokens
termination_by l.bound
decreasing_by exact bound_next? _h

end Lexer

/-- The tokens of a text. -/
def tokens (text : String) : List Token := (Lexer.ofString text).tokens

end GoTrace
