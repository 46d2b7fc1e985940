import GoTrace.Text.DefaultIgnorable
import GoTrace.Text.GraphemeExtend
import GoTrace.Text.Unprintable

/-!
# Quoted text

Text in a trace or an error message stands between double quotes, on one line and in printable
characters. A backslash, a double quote, a newline, a carriage return, a tab and a NUL are written
as two characters that begin with a backslash; a character that does not print by itself is written
as its code point in hexadecimal between braces; every other character, the single quote included,
stands for itself.

A character does not print by itself if it is unprintable, if it is ignored by default, or if it
extends the grapheme in front of it and is no letter.
-/

namespace GoTrace.Quoted

/-- Whether `c` is a halfwidth sound mark. These two are the only letters, of the Unicode general
category Lm, that extend a grapheme: they take up a cell of their own. -/
def isSoundMark (c : Char) : Bool := c == '\uff9e' || c == '\uff9f'

/-- Whether `c` is a mark on the character in front of it. -/
def isMark (c : Char) : Bool := CharSet.graphemeExtend.contains c && !isSoundMark c

/-- Whether a character is written as itself, unless it has a two-character form. -/
def isPlain (c : Char) : Bool :=
  if c.toNat < 0x7f then 0x20 ≤ c.toNat
  else !isMark c && !CharSet.defaultIgnorable.contains c && !CharSet.unprintable.contains c

/-- The characters that stand for `c` between the quotes. -/
def encodeChar (c : Char) : List Char :=
  match c with
  | '\\' => ['\\', '\\']
  | '"' => ['\\', '"']
  | '\n' => ['\\', 'n']
  | '\r' => ['\\', 'r']
  | '\t' => ['\\', 't']
  | '\x00' => ['\\', '0']
  | c => if isPlain c then [c] else ['\\', 'u', '\x7b'] ++ Nat.toDigits 16 c.toNat ++ ['\x7d']

/-- The quoted form of `s`. -/
def encode (s : String) : String :=
  String.ofList ('"' :: s.toList.flatMap encodeChar ++ ['"'])

end GoTrace.Quoted
