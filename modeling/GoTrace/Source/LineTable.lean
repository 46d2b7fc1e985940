import GoTrace.Sorted
import GoTrace.Source.Span

/-!
# Lines and columns

A `LineTable` is a text together with the offsets at which its lines start. It answers two
questions: which line and column a byte offset falls on, and which text lies between two offsets.

Lines and columns count from one, and a column counts bytes. A newline belongs to the line it ends,
so a final newline is followed by one more, empty, line. Only an offset between two characters has a
position; the end of the text has one too. The starts are worked out once, in one pass, and a line
is found among them by halving.
-/

namespace GoTrace

/-- A line and a column, with the offset they stand for. -/
@[ext]
structure Position where
  /-- The number of the line, from one on. -/
  line : Nat
  /-- The number of the byte in its line, from one on. -/
  column : Nat
  /-- The offset that was looked up. -/
  offset : Offset
  deriving DecidableEq, Inhabited

/-- The line and the column, with a colon between them. -/
def Position.text (p : Position) : String := s!"{p.line}:{p.column}"

/-- The offsets of the line starts after a place `n` bytes into a text, put behind those in front of
it; the characters are those from that place on. -/
def lineStartsFrom : List Char → Nat → Array Nat → Array Nat
  | [], _, starts => starts
  | c :: cs, n, starts =>
    let next := n + c.utf8Size
    lineStartsFrom cs next (if c = '\n' then starts.push next else starts)

/-- The offsets at which the lines of `text` start: the beginning, and the place after each
newline. -/
def lineStarts (text : String) : Array Nat := lineStartsFrom text.toList 0 #[0]

/-- A text and the offsets at which its lines start. -/
structure LineTable where
  /-- The text. -/
  text : String
  /-- The offsets of the line starts. -/
  starts : Array Nat
  /-- The starts are those of the text. -/
  starts_eq : starts = lineStarts text

namespace LineTable

/-- The table of a text. -/
def ofString (text : String) : LineTable := ⟨text, lineStarts text, rfl⟩

/-- The length of the text in bytes. -/
def size (t : LineTable) : Nat := t.text.utf8ByteSize

/-- Whether the text is empty. -/
def isEmpty (t : LineTable) : Bool := t.size == 0

/-- The number of lines. -/
def lineCount (t : LineTable) : Nat := t.starts.size

/-- The offset at which a line starts, if the text has that line. -/
def lineStart? (t : LineTable) : Nat → Option Offset
  | 0 => none
  | line + 1 => t.starts[line]?.map Offset.ofNat

/-- The line and column of an offset, if it lies between two characters or at an end of the text. -/
def position? (t : LineTable) (place : Offset) : Option Position :=
  if String.Pos.Raw.isValid t.text ⟨place.toNat⟩ then
    let line := Sorted.countUpTo t.starts place.toNat
    let start := t.starts[line - 1]?.getD 0
    some ⟨line, place.toNat - start + 1, place⟩
  else none

/-- The text of a span, if its ends are in order and lie between characters or at the ends of the
text. -/
def slice? (t : LineTable) (span : Span) : Option String :=
  match t.text.pos? ⟨span.start.toNat⟩, t.text.pos? ⟨span.stop.toNat⟩ with
  | some start, some stop => if start ≤ stop then some (t.text.extract start stop) else none
  | _, _ => none

end LineTable

end GoTrace
