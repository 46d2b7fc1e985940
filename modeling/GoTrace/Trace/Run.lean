import GoTrace.Layout.Event
import GoTrace.Layout.OfSyntax
import GoTrace.Trace.Gap

/-!
# Traces

A trace is made by going once through the events of a file's layout. A cursor says how far the text
is accounted for: it stands at the end of the last fragment that covers text, and the comments that
start behind it are pending. Each event moves the cursor forward to its own place, which turns the
gap in between into fragments, and then adds a fragment of its own. A token moves the cursor on over
its text, which has to be the text of the source there.

An event that would move the cursor backwards, a gap with something else than whitespace and
comments, and a comment left over at the end are errors. So a trace accounts for every byte of its
text.
-/

namespace GoTrace

/-- What a trace shows, and how deep constructs may nest. -/
structure Options where
  /-- Whether checkpoints are shown. -/
  checkpoints : Bool := true
  /-- The largest number of constructs inside each other. -/
  maxDepth : Nat := 256

/-- How far a text is accounted for. -/
structure Cursor where
  /-- The end of the last fragment that covers text. -/
  place : Offset
  /-- The comments that start behind it. -/
  pending : List Comment

namespace Cursor

/-- The cursor at the beginning of a text with some comments. -/
def atStart (comments : List Comment) : Cursor := ⟨.zero, comments⟩

/-- Moves forward to `place`; the gap in between becomes fragments. -/
def advanceTo (table : LineTable) (c : Cursor) (place : Offset) :
    Except TraceError (List Fragment × Cursor) :=
  if place < c.place then misplaced (.backwards c.place) place
  else if c.place < place then do
    let (fragments, pending) ← Gap.scan table c.pending c.place place
    pure (fragments, ⟨place, pending⟩)
  else pure ([], c)

/-- Moves forward to `place` and adds a mark there. -/
def markAt (table : LineTable) (c : Cursor) (place : Offset) (mark : Mark) :
    Except TraceError (List Fragment × Cursor) := do
  let (fragments, c) ← c.advanceTo table place
  pure (fragments ++ [⟨mark, ← table.resolve place⟩], c)

/-- Moves forward to `place` and on over the token that has to stand there. -/
def takeToken (table : LineTable) (c : Cursor) (owner : NodeKind) (place : Offset)
    (text : String) : Except TraceError (List Fragment × Cursor) := do
  let (fragments, c) ← c.advanceTo table place
  match table.slice? (.ofLength place text.utf8ByteSize) with
  | none => misplaced (.tokenPastSource text) place
  | some found =>
    if found = text then do
      let position ← table.resolve place
      pure (fragments ++ [⟨.token owner text, position⟩],
        { c with place := place.advance text.utf8ByteSize })
    else misplaced (.tokenMismatch text found) place

/-- The fragments of one event, and the cursor behind it. -/
def step (options : Options) (table : LineTable) (c : Cursor) :
    Event → Except TraceError (List Fragment × Cursor)
  | .enter kind place depth =>
    if options.maxDepth < depth then .error (.nestingTooDeep options.maxDepth place)
    else c.markAt table place (.nodeStart kind)
  | .leave kind place => c.markAt table place (.nodeEnd kind)
  | .token owner place text => c.takeToken table owner place text
  | .checkpoint owner label =>
    if options.checkpoints then do
      pure ([⟨.checkpoint owner label, ← table.resolve c.place⟩], c)
    else pure ([], c)
  | .refuse kind place => .error (.unsupportedConstruct kind place)

/-- The fragments of some events behind those already made, and the cursor behind them. -/
def run (options : Options) (table : LineTable) :
    List Event → Cursor → Array Fragment → Except TraceError (Array Fragment × Cursor)
  | [], c, made => .ok (made, c)
  | event :: events, c, made =>
    match c.step options table event with
    | .error e => .error e
    | .ok (fragments, c) => run options table events c (made ++ fragments)

/-- Refuses a comment that is left over. -/
def finish (c : Cursor) : Except TraceError Unit :=
  match c.pending with
  | [] => .ok ()
  | comment :: _ => misplaced .commentOutsideFile comment.span.start

end Cursor

/-- The events of a file. -/
def File.events (file : File) : List Event := file.layout.events 0

/-- The trace of a file over a text, or the first reason why they do not fit together. -/
def File.trace (file : File) (table : LineTable) (options : Options) :
    Except TraceError (List Fragment) := do
  let (fragments, c) ← (Cursor.atStart file.comments).run options table file.events #[]
  c.finish
  pure fragments.toList

end GoTrace
