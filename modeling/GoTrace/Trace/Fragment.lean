import GoTrace.Layout.NodeKind
import GoTrace.Source.LineTable
import GoTrace.Text.Quoted

/-!
# Fragments

A trace is a list of fragments, each a mark at a position. Starts, ends, checkpoints and tokens
belong to a construct; comments and the markers for line breaks and blank lines belong to none.

`Fragment.render` writes a fragment on one line: its texts are quoted, so they hold no newline.
-/

namespace GoTrace

/-- The kind of a mark. -/
inductive MarkKind
  | nodeStart | nodeCheckpoint | nodeEnd | token | comment | lineBreak | blankLine
  deriving DecidableEq

namespace MarkKind

/-- Every kind of mark. -/
def all : List MarkKind :=
  [.nodeStart, .nodeCheckpoint, .nodeEnd, .token, .comment, .lineBreak, .blankLine]

/-- The name of a kind. -/
def name : MarkKind → String
  | nodeStart => "NodeStart"
  | nodeCheckpoint => "NodeCheckpoint"
  | nodeEnd => "NodeEnd"
  | token => "Token"
  | comment => "Comment"
  | lineBreak => "LineBreak"
  | blankLine => "BlankLine"

/-- Whether marks of the kind belong to no construct. -/
def isTrivia : MarkKind → Bool
  | comment | lineBreak | blankLine => true
  | _ => false

/-- Whether marks of the kind stand for newlines. -/
def isLineMarker : MarkKind → Bool
  | lineBreak | blankLine => true
  | _ => false

end MarkKind

/-- What stands at a position. -/
inductive Mark
  /-- The start of a construct. -/
  | nodeStart (construct : NodeKind)
  /-- A named place inside a construct. -/
  | checkpoint (construct : NodeKind) (label : String)
  /-- The end of a construct. -/
  | nodeEnd (construct : NodeKind)
  /-- A token of a construct. -/
  | token (construct : NodeKind) (text : String)
  /-- A comment. -/
  | comment (text : String)
  /-- The first newline between two fragments. -/
  | lineBreak
  /-- The rest of a run of two or more newlines. -/
  | blankLine
  deriving DecidableEq

namespace Mark

/-- The kind of a mark. -/
def kind : Mark → MarkKind
  | nodeStart _ => .nodeStart
  | checkpoint _ _ => .nodeCheckpoint
  | nodeEnd _ => .nodeEnd
  | token _ _ => .token
  | comment _ => .comment
  | lineBreak => .lineBreak
  | blankLine => .blankLine

/-- The construct that a mark belongs to. -/
def construct? : Mark → Option NodeKind
  | nodeStart construct | checkpoint construct _ | nodeEnd construct | token construct _ =>
    some construct
  | comment _ | lineBreak | blankLine => none

/-- The name of a checkpoint. -/
def label? : Mark → Option String
  | checkpoint _ label => some label
  | _ => none

/-- The text that a mark covers: that of a token or comment, and otherwise none. -/
def text : Mark → String
  | token _ text | comment text => text
  | _ => ""

/-- The words of a trace for a mark. -/
def render : Mark → String
  | nodeStart construct => s!"{construct.name} Start"
  | checkpoint construct label => s!"{construct.name} {label}"
  | nodeEnd construct => s!"{construct.name} End"
  | token construct text => s!"{construct.name} {Quoted.encode text}"
  | comment text => Quoted.encode text
  | lineBreak => "New line"
  | blankLine => "Empty line"

end Mark

/-- A mark and its position. -/
structure Fragment where
  /-- What stands there. -/
  mark : Mark
  /-- Where it starts. -/
  position : Position
  deriving DecidableEq

/-- The line of a trace for a fragment: its words, then its line and column. -/
def Fragment.render (f : Fragment) : String :=
  s!"{f.mark.render} {f.position.text}"

/-- The text of a trace: each line ends in a newline. -/
def Fragment.renderAll (fragments : List Fragment) : String :=
  String.join (fragments.map fun fragment => fragment.render ++ "\n")

end GoTrace
