import GoTrace.Token.Basic
import GoTrace.Trace.Fragment
import GoTrace.Trace.TraceError

/-!
# Gaps

A gap is the text between two places of a trace that follow each other. It may hold comments and
whitespace and nothing else. Each comment becomes a fragment, and each stretch of whitespace becomes
at most two: a line break at its first newline, and, if it holds a second one, a blank line behind
the first. A line comment owns the newline behind it, so no line break follows it.

The comments of a file come in order, so a gap takes those that start in it off the front of the
list.
-/

namespace GoTrace

/-- The error for a position that does not fit. -/
def misplaced {α : Type} (fault : PositionFault) (place : Offset) : Except TraceError α :=
  .error (.malformedPosition fault place)

/-- The line and column of an offset that has to have one. -/
def LineTable.resolve (table : LineTable) (place : Offset) : Except TraceError Position :=
  match table.position? place with
  | some position => .ok position
  | none => misplaced .unresolved place

/-- The text of a span that has to have one. -/
def LineTable.textOf (table : LineTable) (span : Span) : Except TraceError String :=
  match table.slice? span with
  | some text => .ok text
  | none => misplaced .outsideSource span.start

namespace Gap

/-- Whether a character may stand between tokens and comments. -/
def isSpace (c : Char) : Bool := c == ' ' || c == '\t' || c == '\r' || c == '\n'

/-- The markers for the newlines of the whitespace `chars`, which starts at `start`. A newline that
is owned by a comment in front makes no line break. -/
def markers (table : LineTable) (start : Offset) (chars : List Char) (owned : Bool) :
    Except TraceError (List Fragment) :=
  match chars.dropWhile (· != '\n') with
  | [] => .ok []
  | _ :: rest => do
    let first := start.advance (chars.takeWhile (· != '\n')).length
    let lineBreak ← if owned then pure [] else do
      pure [⟨.lineBreak, ← table.resolve first⟩]
    let blankLine ← if rest.contains '\n' then do
        pure [⟨.blankLine, ← table.resolve (first.advance 1)⟩]
      else pure []
    pure (lineBreak ++ blankLine)

/-- The fragments of the whitespace from `start` to `stop`; `owned` says whether a line comment ends
at `start`. -/
def whitespace (table : LineTable) (start stop : Offset) (owned : Bool) :
    Except TraceError (List Fragment) :=
  if start = stop then .ok []
  else do
    let chars := (← table.textOf ⟨start, stop⟩).toList
    let blank := chars.takeWhile isSpace
    if blank.length < chars.length then misplaced .uncovered (start.advance blank.length)
    else markers table start chars owned

/-- The fragment of a comment that has to end at or before `stop`. -/
def comment (table : LineTable) (stop : Offset) (c : Comment) : Except TraceError Fragment :=
  if stop < c.span.stop then misplaced .commentOverlap c.span.start
  else do
    let text ← table.textOf c.span
    if text = c.text then
      pure ⟨.comment text, ← table.resolve c.span.start⟩
    else misplaced (.commentMismatch c.text text) c.span.start

/-- The fragments from `start` to `stop`, and the comments that start behind. The comments `pending`
are those that no gap has taken; `owned` says whether a line comment ends at `start`. -/
def scanFrom (table : LineTable) (stop : Offset) :
    (pending : List Comment) → (start : Offset) → (owned : Bool) →
      Except TraceError (List Fragment × List Comment)
  | [], start, owned => do
    pure (← whitespace table start stop owned, [])
  | c :: pending, start, owned =>
    if c.span.start < stop then do
      let blanks ← whitespace table start c.span.start owned
      let fragment ← comment table stop c
      let (fragments, left) ← scanFrom table stop pending c.span.stop c.isLine
      pure (blanks ++ fragment :: fragments, left)
    else do
      pure (← whitespace table start stop owned, c :: pending)

/-- The fragments of the gap from `start` to `stop`, and the comments that start behind it. No
pending comment may start in front of the gap. -/
def scan (table : LineTable) (pending : List Comment) (start stop : Offset) :
    Except TraceError (List Fragment × List Comment) :=
  match pending.head? with
  | some c =>
    if c.span.start < start then misplaced .commentOverlap c.span.start
    else scanFrom table stop pending start false
  | none => scanFrom table stop pending start false

end Gap

end GoTrace
