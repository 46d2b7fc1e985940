import GoTrace.Layout.NodeKind
import GoTrace.Source.Span

/-!
# Layouts

The layout of a construct lists, in the order of the text, everything that stands between its start
and its end: fixed tokens, tokens whose text the construct carries, checkpoints, single constructs
and runs of constructs with commas between them. All constructs have layouts of this one form, so
what works on them is a short recursion over rows and never a case for each kind of construct.

An optional part that is missing keeps its row, with nothing in it.
-/

namespace GoTrace

mutual

/-- A construct with its parts laid out. -/
inductive Layout
  | node (kind : NodeKind) (span : Span) (rows : List Row)
  /-- A placeholder has a span and no parts. -/
  | placeholder (kind : NodeKind) (span : Span)

/-- One entry of a layout. -/
inductive Row
  /-- A keyword or mark with fixed text. -/
  | token (text : String) (place? : Option Offset)
  /-- A token whose text the construct carries. -/
  | lexeme (lexeme? : Option (Offset × String))
  /-- A named place behind the row in front of it; a trace shows it if it is present. -/
  | checkpoint (label : String) (present : Bool)
  /-- A construct. -/
  | child (layout? : Option Layout)
  /-- A run of constructs, and the offsets of the commas between and behind them. -/
  | list (items : List Layout) (separators : List Offset)

end

namespace Layout

/-- The kind of the construct. -/
def kind : Layout → NodeKind
  | node kind _ _ => kind
  | placeholder kind _ => kind

/-- The bytes that the construct covers. -/
def span : Layout → Span
  | node _ span _ => span
  | placeholder _ span => span

/-- Where the construct starts. -/
def start (l : Layout) : Offset := l.span.start

/-- Where the construct ends. -/
def stop (l : Layout) : Offset := l.span.stop

/-- The rows of the construct; a placeholder has none. -/
def rows? : Layout → Option (List Row)
  | node _ _ rows => some rows
  | placeholder _ _ => none

end Layout

/-- The constructs of a row, in order. -/
def Row.parts : Row → List Layout
  | .child layout? => layout?.toList
  | .list items _ => items
  | .token _ _ | .lexeme _ | .checkpoint _ _ => []

mutual

/-- A construct and everything in it, each construct in front of its parts. -/
def Layout.preorder : Layout → List Layout
  | .node kind span rows => .node kind span rows :: Row.preorders rows
  | .placeholder kind span => [.placeholder kind span]

/-- The constructs of a row, each with everything in it. -/
def Row.preorder : Row → List Layout
  | .child none => []
  | .child (some layout) => layout.preorder
  | .list items _ => Layout.preorders items
  | .token _ _ | .lexeme _ | .checkpoint _ _ => []

/-- The constructs of some rows, each with everything in it. -/
def Row.preorders : List Row → List Layout
  | [] => []
  | row :: rows => row.preorder ++ Row.preorders rows

/-- Some constructs, each with everything in it. -/
def Layout.preorders : List Layout → List Layout
  | [] => []
  | layout :: layouts => layout.preorder ++ Layout.preorders layouts

end

end GoTrace
