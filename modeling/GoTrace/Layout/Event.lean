import GoTrace.Layout.Row

/-!
# The events of a layout

A layout, read from front to back, is a list of events: a construct is entered, its rows follow in
order, and it is left again. A trace is made by going through these events once, so everything about
the order of a trace is said here, without a text at hand.

Commas are put between the constructs of a run by their offsets: a comma stands in front of the
first construct that starts behind it, and those that are left stand behind the last construct.
-/

namespace GoTrace

/-- One thing that a layout asks for. -/
inductive Event
  /-- A construct starts; `depth` counts the constructs around it, itself included. -/
  | enter (kind : NodeKind) (place : Offset) (depth : Nat)
  /-- A construct ends. -/
  | leave (kind : NodeKind) (place : Offset)
  /-- A token of a construct. -/
  | token (owner : NodeKind) (place : Offset) (text : String)
  /-- A checkpoint of a construct. It stands where the event in front of it ends. -/
  | checkpoint (owner : NodeKind) (label : String)
  /-- A placeholder, which has no layout. -/
  | refuse (kind : NodeKind) (place : Offset)
  deriving DecidableEq

/-- The commas of a construct at some offsets. -/
def Event.commas (owner : NodeKind) (places : List Offset) : List Event :=
  places.map (.token owner · ",")

mutual

/-- The events of a construct with `depth` constructs around it. -/
def Layout.events (depth : Nat) : Layout → List Event
  | .node kind span rows =>
    .enter kind span.start (depth + 1) :: Row.allEvents kind (depth + 1) rows
      ++ [.leave kind span.stop]
  | .placeholder kind span => [.refuse kind span.start]

/-- The events of a row of the construct `owner`, with `depth` constructs around the row. -/
def Row.events (owner : NodeKind) (depth : Nat) : Row → List Event
  | .token _ none => []
  | .token text (some place) => [.token owner place text]
  | .lexeme none => []
  | .lexeme (some (place, text)) => [.token owner place text]
  | .checkpoint _ false => []
  | .checkpoint label true => [.checkpoint owner label]
  | .child none => []
  | .child (some layout) => layout.events depth
  | .list items separators => Layout.runEvents owner depth items separators

/-- The events of some rows of the construct `owner`. -/
def Row.allEvents (owner : NodeKind) (depth : Nat) : List Row → List Event
  | [] => []
  | row :: rows => row.events owner depth ++ Row.allEvents owner depth rows

/-- The events of a run of constructs, with the commas that are not yet placed. -/
def Layout.runEvents (owner : NodeKind) (depth : Nat) : List Layout → List Offset → List Event
  | [], separators => Event.commas owner separators
  | item :: items, separators =>
    Event.commas owner (separators.takeWhile (· < item.start)) ++ item.events depth
      ++ Layout.runEvents owner depth items (separators.dropWhile (· < item.start))

end

end GoTrace
