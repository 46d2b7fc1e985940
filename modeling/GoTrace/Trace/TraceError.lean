import GoTrace.Layout.NodeKind
import GoTrace.Source.Offset
import GoTrace.Text.Quoted

/-!
# Why there is no trace

A tree and a text have a trace only if they fit together. Each way in which they may not is a cause
of its own, with the offset at which it was found.
-/

namespace GoTrace

/-- What is wrong with a position. -/
inductive PositionFault
  /-- It lies in front of the end of the fragment before it, which is `cursor`. -/
  | backwards (cursor : Offset)
  /-- The text there is not that of the token. -/
  | tokenMismatch (expected found : String)
  /-- The token does not fit into the text. -/
  | tokenPastSource (expected : String)
  /-- A comment and a token share bytes. -/
  | commentOverlap
  /-- The text there is not that of the comment. -/
  | commentMismatch (expected found : String)
  /-- A comment is left over at the end. -/
  | commentOutsideFile
  /-- The text holds something that is in no token and no comment. -/
  | uncovered
  /-- There is no text between two offsets. -/
  | outsideSource
  /-- The offset has no line and column. -/
  | unresolved
  deriving DecidableEq

/-- The words for what is wrong with a position. -/
def PositionFault.reason : PositionFault → String
  | backwards cursor => s!"position moves backwards from byte {cursor.toNat}"
  | tokenMismatch expected found =>
    s!"expected token {Quoted.encode expected}, found {Quoted.encode found}"
  | tokenPastSource expected => s!"token {Quoted.encode expected} runs past the source"
  | commentOverlap => "comment overlaps a token"
  | commentMismatch expected found =>
    s!"expected comment {Quoted.encode expected}, found {Quoted.encode found}"
  | commentOutsideFile => "comment lies outside the file"
  | uncovered => "source text between fragments is not covered by the tree"
  | outsideSource => "span lies outside the source"
  | unresolved => "offset does not resolve to a line and column"

/-- Why a tree and a text have no trace. -/
inductive TraceError
  /-- The tree holds a placeholder. -/
  | unsupportedConstruct (kind : NodeKind) (place : Offset)
  /-- A position of the tree does not fit the text. -/
  | malformedPosition (fault : PositionFault) (place : Offset)
  /-- Constructs are nested deeper than `limit`. -/
  | nestingTooDeep (limit : Nat) (place : Offset)
  deriving DecidableEq

namespace TraceError

/-- The offset at which the error was found. -/
def place : TraceError → Offset
  | unsupportedConstruct _ place | malformedPosition _ place | nestingTooDeep _ place => place

/-- The words for an error. -/
def message : TraceError → String
  | unsupportedConstruct kind place =>
    s!"no layout is defined for `{kind.name}` (at byte {place.toNat})"
  | malformedPosition fault place =>
    s!"malformed position at byte {place.toNat}: {fault.reason}"
  | nestingTooDeep limit place =>
    s!"constructs nest deeper than {limit} levels (at byte {place.toNat})"

end TraceError

end GoTrace
