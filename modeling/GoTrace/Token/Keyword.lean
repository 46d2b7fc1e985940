/-!
# Keywords

The 25 reserved words of Go. `Keyword.ofText?` finds the keyword that a word spells; every other
word is an identifier. A newline after one of the four keywords that can end a statement ends it.
-/

namespace GoTrace

/-- A reserved word. -/
inductive Keyword
  | breakKw | caseKw | chanKw | constKw | continueKw | defaultKw | deferKw | elseKw
  | fallthroughKw | forKw | funcKw | goKw | gotoKw | ifKw | importKw | interfaceKw | mapKw
  | packageKw | rangeKw | returnKw | selectKw | structKw | switchKw | typeKw | varKw
  deriving DecidableEq

namespace Keyword

/-- Every keyword, in alphabetical order. -/
def all : List Keyword :=
  [.breakKw, .caseKw, .chanKw, .constKw, .continueKw, .defaultKw, .deferKw, .elseKw,
   .fallthroughKw, .forKw, .funcKw, .goKw, .gotoKw, .ifKw, .importKw, .interfaceKw, .mapKw,
   .packageKw, .rangeKw, .returnKw, .selectKw, .structKw, .switchKw, .typeKw, .varKw]

/-- The spelling of a keyword. -/
def text : Keyword → String
  | .breakKw => "break"
  | .caseKw => "case"
  | .chanKw => "chan"
  | .constKw => "const"
  | .continueKw => "continue"
  | .defaultKw => "default"
  | .deferKw => "defer"
  | .elseKw => "else"
  | .fallthroughKw => "fallthrough"
  | .forKw => "for"
  | .funcKw => "func"
  | .goKw => "go"
  | .gotoKw => "goto"
  | .ifKw => "if"
  | .importKw => "import"
  | .interfaceKw => "interface"
  | .mapKw => "map"
  | .packageKw => "package"
  | .rangeKw => "range"
  | .returnKw => "return"
  | .selectKw => "select"
  | .structKw => "struct"
  | .switchKw => "switch"
  | .typeKw => "type"
  | .varKw => "var"

/-- The keyword that a word spells, if it spells one. -/
def ofText? (word : String) : Option Keyword :=
  all.find? (·.text == word)

/-- Whether a newline directly after the keyword ends the statement. -/
def endsStatement : Keyword → Bool
  | .breakKw | .continueKw | .fallthroughKw | .returnKw => true
  | _ => false

theorem mem_all (k : Keyword) : k ∈ all := by
  cases k <;> decide

/-- A keyword is found under its own spelling. -/
theorem ofText?_text (k : Keyword) : ofText? k.text = some k := by
  cases k <;> decide

end Keyword

end GoTrace
