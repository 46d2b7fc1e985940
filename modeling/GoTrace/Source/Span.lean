import GoTrace.Source.Offset

/-!
# Spans

A span is the half-open interval of bytes between two offsets. Nothing forces its ends into order: a
tree that was edited by hand may hold spans that run backwards, and what becomes of those is decided
where they are used.
-/

namespace GoTrace

/-- The bytes from `start` up to, and not including, `stop`. -/
@[ext]
structure Span where
  /-- The offset of the first byte. -/
  start : Offset
  /-- The offset after the last byte. -/
  stop : Offset
  deriving DecidableEq, Inhabited

namespace Span

/-- The span of `length` bytes from `start` on. -/
def ofLength (start : Offset) (length : Nat) : Span := ⟨start, start.advance length⟩

/-- The span of no bytes at `place`. -/
def empty (place : Offset) : Span := ⟨place, place⟩

/-- The number of bytes of a span whose ends are in order. -/
def length (s : Span) : Nat := s.stop.toNat - s.start.toNat

/-- Whether the span ends where it starts. -/
def isEmpty (s : Span) : Bool := s.start == s.stop

/-- Whether the byte at `place` lies in the span. -/
def contains (s : Span) (place : Offset) : Bool := s.start ≤ place && place < s.stop

end Span

end GoTrace
