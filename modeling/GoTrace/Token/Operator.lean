/-!
# Operators and punctuation

Every operator and punctuation mark of Go but the semicolon, which is a token kind of its own
because it may be left out at the end of a line. `Operator.longestFirst` lists them so that no
operator comes after a shorter one: the first that the text begins with is the longest that it
begins with.
-/

namespace GoTrace

/-- An operator or punctuation mark. -/
inductive Operator
  | add | sub | mul | quo | rem | and | or | xor | shl | shr | andNot
  | addAssign | subAssign | mulAssign | quoAssign | remAssign | andAssign | orAssign | xorAssign
  | shlAssign | shrAssign | andNotAssign | assign | define
  | logicalAnd | logicalOr | arrow | inc | dec | eql | lss | gtr | not | tilde | neq | leq | geq
  | ellipsis
  | lparen | lbrack | lbrace | comma | period | rparen | rbrack | rbrace | colon
  deriving DecidableEq

namespace Operator

/-- Every operator, no longer one after a shorter one. -/
def longestFirst : List Operator :=
  [.shlAssign, .shrAssign, .andNotAssign, .ellipsis, .addAssign, .subAssign, .mulAssign,
   .quoAssign, .remAssign, .andAssign, .orAssign, .xorAssign, .shl, .shr, .andNot, .logicalAnd,
   .logicalOr, .arrow, .inc, .dec, .eql, .neq, .leq, .geq, .define, .add, .sub, .mul, .quo, .rem,
   .and, .or, .xor, .lss, .gtr, .assign, .not, .tilde, .lparen, .lbrack, .lbrace, .comma, .period,
   .rparen, .rbrack, .rbrace, .colon]

/-- The spelling of an operator. -/
def text : Operator → String
  | .add => "+"
  | .sub => "-"
  | .mul => "*"
  | .quo => "/"
  | .rem => "%"
  | .and => "&"
  | .or => "|"
  | .xor => "^"
  | .shl => "<<"
  | .shr => ">>"
  | .andNot => "&^"
  | .addAssign => "+="
  | .subAssign => "-="
  | .mulAssign => "*="
  | .quoAssign => "/="
  | .remAssign => "%="
  | .andAssign => "&="
  | .orAssign => "|="
  | .xorAssign => "^="
  | .shlAssign => "<<="
  | .shrAssign => ">>="
  | .andNotAssign => "&^="
  | .assign => "="
  | .define => ":="
  | .logicalAnd => "&&"
  | .logicalOr => "||"
  | .arrow => "<-"
  | .inc => "++"
  | .dec => "--"
  | .eql => "=="
  | .lss => "<"
  | .gtr => ">"
  | .not => "!"
  | .tilde => "~"
  | .neq => "!="
  | .leq => "<="
  | .geq => ">="
  | .ellipsis => "..."
  | .lparen => "("
  | .lbrack => "["
  | .lbrace => "\x7b"
  | .comma => ","
  | .period => "."
  | .rparen => ")"
  | .rbrack => "]"
  | .rbrace => "\x7d"
  | .colon => ":"

/-- How tightly an operator binds its two operands, from 1 to 5; 0 if it does not join two. -/
def precedence : Operator → Nat
  | .logicalOr => 1
  | .logicalAnd => 2
  | .eql | .neq | .lss | .leq | .gtr | .geq => 3
  | .add | .sub | .or | .xor => 4
  | .mul | .quo | .rem | .shl | .shr | .and | .andNot => 5
  | _ => 0

/-- Whether the operator assigns: the plain and the declaring assignment, and those that compute
first. -/
def isAssignment : Operator → Bool
  | .assign | .define | .addAssign | .subAssign | .mulAssign | .quoAssign | .remAssign | .andAssign
  | .orAssign | .xorAssign | .shlAssign | .shrAssign | .andNotAssign => true
  | _ => false

/-- Whether a newline directly after the operator ends the statement. -/
def endsStatement : Operator → Bool
  | .inc | .dec | .rparen | .rbrack | .rbrace => true
  | _ => false

theorem mem_longestFirst (op : Operator) : op ∈ longestFirst := by
  cases op <;> decide

/-- Different operators are spelled differently. -/
theorem text_injective {a b : Operator} (h : a.text = b.text) : a = b := by
  have ha : longestFirst.find? (·.text == a.text) = some a := by cases a <;> decide
  have hb : longestFirst.find? (·.text == b.text) = some b := by cases b <;> decide
  rw [h, hb] at ha
  exact (Option.some.inj ha).symm

/-- No operator joins two operands tighter than the fifth level. -/
theorem precedence_le (op : Operator) : op.precedence ≤ 5 := by
  cases op <;> decide

end Operator

end GoTrace
