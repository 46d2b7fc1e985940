import GoTrace.Text.Alphabetic
import GoTrace.Text.Numeric
import GoTrace.Token.Basic

/-!
# Lexemes

`Lexeme.ofChars` says what a text that begins with no blank begins with, a comment or a token, and
how many characters belong to it. Each kind of lexeme has a function for its length, and its text is
that many characters off the front, so nothing of the text is lost or moved.

**Semicolons.** A newline is a blank, except after a token that can end a statement. There a
semicolon is *due*, and it is given out at a newline, at the end of the text, at a line comment, and
at a block comment that holds a newline. Such an implicit semicolon takes no characters: it stands
in front of the newline or comment.

Every lexeme but an implicit semicolon and the end takes at least one character
(`Lexeme.ofChars_advances`).
-/

namespace GoTrace

/-! ## Characters -/

/-- Whether an identifier may begin with `c`: an underscore or an alphabetic character. -/
def isIdentStart (c : Char) : Bool :=
  if c.toNat < 128 then c == '_' || c.isAlpha else CharSet.alphabetic.contains c

/-- Whether an identifier may go on with `c`: what it may begin with, or a numeric character. -/
def isIdentContinue (c : Char) : Bool :=
  if c.toNat < 128 then c == '_' || c.isAlphanum
  else CharSet.alphabetic.contains c || CharSet.numeric.contains c

/-- Whether `c` is passed over between tokens: a space, a tab, a carriage return, or a newline where
no semicolon is due. -/
def isBlank (due : Bool) (c : Char) : Bool :=
  c == ' ' || c == '\t' || c == '\r' || (c == '\n' && !due)

/-- Whether `c` is a decimal digit or the underscore that may stand between digits. -/
def isDigitOrUnderscore (c : Char) : Bool := c.isDigit || c == '_'

/-- Whether `c` is a hexadecimal digit or the underscore that may stand between digits. -/
def isHexDigitOrUnderscore (c : Char) : Bool :=
  c.isDigit || ('a' ≤ c && c ≤ 'f') || ('A' ≤ c && c ≤ 'F') || c == '_'

/-! ## Reasons for an error token -/

/-- Why a text is no token. -/
inductive LexError
  | commentNotTerminated
  | stringNotTerminated
  | runeNotTerminated
  | rawStringNotTerminated
  | unexpectedCharacter (c : Char)
  | tooLong (size : Nat)

/-- The message of an error token. -/
def LexError.message : LexError → String
  | commentNotTerminated => "comment not terminated"
  | stringNotTerminated => "string literal not terminated"
  | runeNotTerminated => "rune literal not terminated"
  | rawStringNotTerminated => "raw string literal not terminated"
  | unexpectedCharacter c => s!"unexpected character `{c}`"
  | tooLong size => s!"source of {size} bytes exceeds the {maxOffset} byte limit"

/-! ## Lengths of lexemes -/

/-- The number of characters of the line comment that the text begins with: up to the newline, less
the carriage returns in front of it. -/
def lineCommentLength (cs : List Char) : Nat :=
  ((cs.takeWhile (· != '\n')).reverse.dropWhile (· == '\r')).length

/-- The number of characters up to and including the first star with a slash, if there is one; `n`
characters are in front of the text. -/
def blockCommentLength? : List Char → Nat → Option Nat
  | [], _ => none
  | c :: cs, n =>
    if c = '*' ∧ cs.head? = some '/' then some (n + 2) else blockCommentLength? cs (n + 1)

/-- The number of characters of a literal behind its opening quote, and whether it is closed; `n`
characters are in front of the text. A backslash takes the character after it, whatever that is; a
newline elsewhere, or the end of the text, leaves the literal open. -/
def quotedLength (quote : Char) : List Char → Nat → Nat × Bool
  | [], n => (n, false)
  | '\\' :: [], n => (n + 1, false)
  | '\\' :: _ :: cs, n => quotedLength quote cs (n + 2)
  | c :: cs, n =>
    if c = '\n' then (n, false)
    else if c = quote then (n + 1, true)
    else quotedLength quote cs (n + 1)

/-- The number of characters of the fraction that the text begins with: a period, unless another one
follows it, and the digits behind it. -/
def fractionLength : List Char → Nat
  | '.' :: cs => if cs.head? = some '.' then 0 else 1 + (cs.takeWhile isDigitOrUnderscore).length
  | _ => 0

/-- The number of characters of the sign that the text begins with. -/
def signLength : List Char → Nat
  | '+' :: _ | '-' :: _ => 1
  | _ => 0

/-- The number of characters of the exponent that the text begins with: the letter `e`, a sign, and
digits, of which there may be none. -/
def exponentLength : List Char → Nat
  | c :: cs =>
    if c = 'e' ∨ c = 'E' then
      1 + signLength cs + ((cs.drop (signLength cs)).takeWhile Char.isDigit).length
    else 0
  | [] => 0

/-- The kind and length of the decimal number that the text begins with. It is a floating-point
number if it has a fraction or an exponent. -/
def decimalLength (cs : List Char) : LitKind × Nat :=
  let whole := (cs.takeWhile isDigitOrUnderscore).length
  let fraction := fractionLength (cs.drop whole)
  let exponent := exponentLength (cs.drop (whole + fraction))
  (if fraction + exponent = 0 then .int else .float, whole + fraction + exponent)

/-- The kind and length of the number that the text begins with. -/
def numberLength : List Char → LitKind × Nat
  | '0' :: x :: cs =>
    if x = 'x' ∨ x = 'X' then (.int, 2 + (cs.takeWhile isHexDigitOrUnderscore).length)
    else decimalLength ('0' :: x :: cs)
  | cs => decimalLength cs

/-! ## Lexemes -/

/-- What a text begins with, once blanks are passed over. -/
inductive Lexeme
  | comment (kind : CommentKind)
  | token (kind : TokenKind)

namespace Lexeme

/-- The quoted literal that the text begins with. -/
def quoted (quote : Char) (kind : LitKind) (fault : LexError) (cs : List Char) : Lexeme × Nat :=
  let (length, closed) := quotedLength quote (cs.drop 1) 1
  if closed then (token (.literal kind (String.ofList (cs.take length))), length)
  else (token (.error fault.message), length)

/-- The raw string that the text begins with; it ends at the next backquote. -/
def rawString (cs : List Char) : Lexeme × Nat :=
  let body := (cs.drop 1).takeWhile (· != '\x60')
  let length := body.length + 2
  if length ≤ cs.length then (token (.literal .string (String.ofList (cs.take length))), length)
  else (token (.error LexError.rawStringNotTerminated.message), cs.length)

/-- The identifier or keyword that the text begins with. -/
def word (cs : List Char) : Lexeme × Nat :=
  let chars := cs.takeWhile isIdentContinue
  let text := String.ofList chars
  (token (((Keyword.ofText? text).map TokenKind.keyword).getD (.ident text)), chars.length)

/-- The number that the text begins with. -/
def number (cs : List Char) : Lexeme × Nat :=
  let (kind, length) := numberLength cs
  (token (.literal kind (String.ofList (cs.take length))), length)

/-- The longest operator that the text begins with; failing one, its first character is an error. -/
def operator (c : Char) (cs : List Char) : Lexeme × Nat :=
  match Operator.longestFirst.find? (fun op => op.text.toList.isPrefixOf (c :: cs)) with
  | some op => (token (.operator op), op.text.toList.length)
  | none => (token (.error (LexError.unexpectedCharacter c).message), 1)

/-- The block comment that the text begins with. Where a semicolon is due and the comment holds a
newline, the semicolon comes first. -/
def blockComment (due : Bool) (cs : List Char) : Lexeme × Nat :=
  match blockCommentLength? cs 0 with
  | none => (token (.error LexError.commentNotTerminated.message), cs.length)
  | some length =>
    if due && (cs.take length).contains '\n' then (token (.semicolon true), 0)
    else (comment .block, length)

/-- What the text begins with, and how many characters belong to it; `due` says whether a semicolon
is due. -/
def ofChars (due : Bool) : List Char → Lexeme × Nat
  | [] => (token (if due then .semicolon true else .eof), 0)
  | c :: cs =>
    if due ∧ c = '\n' then (token (.semicolon true), 0)
    else if c = '/' ∧ cs.head? = some '/' then
      if due then (token (.semicolon true), 0)
      else (comment .line, lineCommentLength (c :: cs))
    else if c = '/' ∧ cs.head? = some '*' then blockComment due (c :: cs)
    else if c = ';' then (token (.semicolon false), 1)
    else if c = '"' then quoted '"' .string .stringNotTerminated (c :: cs)
    else if c = '\x60' then rawString (c :: cs)
    else if c = '\'' then quoted '\'' .char .runeNotTerminated (c :: cs)
    else if isIdentStart c then word (c :: cs)
    else if c.isDigit ∨ (c = '.' ∧ (cs.head?.any Char.isDigit)) then number (c :: cs)
    else operator c cs

/-! ## Progress -/

/-- A lexeme and its length move on in the text `cs`: an implicit semicolon uses up that one was
due, the end comes at the end, and everything else takes a character. -/
def Advances (due : Bool) (cs : List Char) : Lexeme × Nat → Prop
  | (token (.semicolon true), _) => due = true
  | (token .eof, _) => due = false ∧ cs = []
  | (_, n) => 0 < n ∧ cs ≠ []

private theorem isIdentContinue_of_isIdentStart {c : Char} (h : isIdentStart c = true) :
    isIdentContinue c = true := by
  unfold isIdentStart at h
  unfold isIdentContinue
  split at h <;> simp_all [Char.isAlphanum]
  exact h.imp_right Or.inl

private theorem quotedLength_ge (q : Char) (cs : List Char) (n : Nat) :
    n ≤ (quotedLength q cs n).1 := by
  fun_induction quotedLength q cs n with
  | case1 | case4 => exact Nat.le_refl _
  | case2 | case5 => exact Nat.le_succ _
  | case3 _ _ _ ih | case6 _ _ _ _ _ _ _ ih => omega

private theorem quoted_advances {due : Bool} {q : Char} {kind : LitKind} {fault : LexError}
    {cs : List Char} (hcs : cs ≠ []) : Advances due cs (quoted q kind fault cs) := by
  have h := quotedLength_ge q (cs.drop 1) 1
  unfold quoted
  split
  split <;> exact ⟨by simp_all; omega, hcs⟩

private theorem rawString_advances {due : Bool} {cs : List Char} (hcs : cs ≠ []) :
    Advances due cs (rawString cs) := by
  have := List.length_pos_iff.2 hcs
  unfold rawString
  dsimp only
  split <;> exact ⟨by omega, hcs⟩

private theorem word_advances {due : Bool} {c : Char} {cs : List Char} (h : isIdentStart c = true) :
    Advances due (c :: cs) (word (c :: cs)) := by
  have hlen : 0 < ((c :: cs).takeWhile isIdentContinue).length := by
    simp [isIdentContinue_of_isIdentStart h]
  unfold word
  dsimp only
  cases Keyword.ofText? (String.ofList ((c :: cs).takeWhile isIdentContinue)) <;>
    exact ⟨hlen, by simp⟩

private theorem decimalLength_pos {c : Char} {cs : List Char}
    (h : c.isDigit ∨ (c = '.' ∧ cs.head?.any Char.isDigit)) : 0 < (decimalLength (c :: cs)).2 := by
  rcases h with h | ⟨rfl, h⟩
  · have hwhole : 0 < ((c :: cs).takeWhile isDigitOrUnderscore).length := by
      simp [isDigitOrUnderscore, h]
    exact Nat.add_pos_left (Nat.add_pos_left hwhole _) _
  · have hdot : isDigitOrUnderscore '.' = false := by decide
    have hne : cs.head? ≠ some '.' := by
      intro he
      simp [he] at h
    have hfraction : 0 < fractionLength
        (('.' :: cs).drop (('.' :: cs).takeWhile isDigitOrUnderscore).length) := by
      simp only [List.takeWhile_cons, hdot, Bool.false_eq_true, if_false, List.length_nil,
        List.drop_zero, fractionLength, hne]
      exact Nat.lt_of_lt_of_le Nat.zero_lt_one (Nat.le_add_right _ _)
    exact Nat.add_pos_left (Nat.add_pos_right _ hfraction) _

private theorem numberLength_pos {c : Char} {cs : List Char}
    (h : c.isDigit ∨ (c = '.' ∧ cs.head?.any Char.isDigit)) : 0 < (numberLength (c :: cs)).2 := by
  unfold numberLength
  split
  · split
    · exact Nat.lt_of_lt_of_le (by decide : 0 < 2) (Nat.le_add_right _ _)
    · simp_all [decimalLength_pos]
  · exact decimalLength_pos h

private theorem operator_advances {due : Bool} {c : Char} {cs : List Char} :
    Advances due (c :: cs) (operator c cs) := by
  unfold operator
  split
  · rename_i op _
    exact ⟨by cases op <;> decide, by simp⟩
  · exact ⟨by decide, by simp⟩

private theorem blockCommentLength?_pos {cs : List Char} {n m : Nat}
    (h : blockCommentLength? cs n = some m) : 0 < m := by
  fun_induction blockCommentLength? cs n <;> simp_all
  omega

private theorem blockComment_advances {due : Bool} {cs : List Char} (hcs : cs ≠ []) :
    Advances due cs (blockComment due cs) := by
  unfold blockComment
  split
  · exact ⟨List.length_pos_iff.2 hcs, hcs⟩
  · rename_i n h
    split
    · simp_all [Advances]
    · exact ⟨blockCommentLength?_pos h, hcs⟩

private theorem dropWhile_append_slash_ne_nil (cs : List Char) :
    (cs ++ ['/']).dropWhile (· == '\r') ≠ [] := by
  induction cs with
  | nil => decide
  | cons c cs ih =>
    rw [List.cons_append, List.dropWhile_cons]
    split
    · exact ih
    · exact List.cons_ne_nil _ _

private theorem lineCommentLength_pos (cs : List Char) : 0 < lineCommentLength ('/' :: cs) := by
  have h : ('/' :: cs).takeWhile (· != '\n') = '/' :: cs.takeWhile (· != '\n') := by simp
  rw [lineCommentLength, List.length_pos_iff, h, List.reverse_cons]
  exact dropWhile_append_slash_ne_nil _

/-- **Every lexeme moves on**, but an implicit semicolon that was due and the end of the text. -/
theorem ofChars_advances (due : Bool) (cs : List Char) : Advances due cs (ofChars due cs) := by
  cases cs with
  | nil => cases due <;> simp [ofChars, Advances]
  | cons c cs =>
    have hcs : c :: cs ≠ [] := by simp
    rw [ofChars]
    split
    · simp_all [Advances]
    split
    · split
      · simp_all [Advances]
      · rename_i h _
        obtain ⟨rfl, _⟩ := h
        exact ⟨lineCommentLength_pos cs, hcs⟩
    split
    · exact blockComment_advances hcs
    split
    · exact ⟨by decide, hcs⟩
    split
    · exact quoted_advances hcs
    split
    · exact rawString_advances hcs
    split
    · exact quoted_advances hcs
    split
    · exact word_advances ‹_›
    split
    · rename_i h
      exact ⟨numberLength_pos h, hcs⟩
    · exact operator_advances

end Lexeme

end GoTrace
