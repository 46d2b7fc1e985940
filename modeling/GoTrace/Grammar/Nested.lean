import GoTrace.Grammar.Parser

/-!
# Nesting

The rules of the grammar call each other in circles: an expression may hold a function literal,
which holds statements, which hold expressions. Every circle passes through one of the eight rules
in `Nested`, and each of those goes one level deeper. So a rule is a plain function of the rules one
level deeper, the levels are numbered, and the rules of level zero refuse everything. No rule calls
itself.
-/

namespace GoTrace

/-- The number of levels that blocks, expressions, types and the like may be nested. -/
def maxNesting : Nat := 128

/-- The rules that go one level deeper. -/
structure Nested where
  /-- A type. -/
  type : Parser Expr
  /-- An expression. -/
  expr : Parser Expr
  /-- The operand of a unary or binary operator. -/
  operand : Parser Expr
  /-- The braces of a composite literal and what is between them, behind its type. -/
  literal : Option Expr → Parser Expr
  /-- A block. -/
  block : Parser Block
  /-- An `if` statement. -/
  ifStmt : Parser Stmt
  /-- A statement behind a label. -/
  stmt : Parser Stmt
  /-- The statements of a clause. -/
  stmts : Parser (List Stmt)

/-- The rules that refuse to go deeper. -/
def Nested.refusing : Nested where
  type := Parser.failHere .nestingTooDeep
  expr := Parser.failHere .nestingTooDeep
  operand := Parser.failHere .nestingTooDeep
  literal _ := Parser.failHere .nestingTooDeep
  block := Parser.failHere .nestingTooDeep
  ifStmt := Parser.failHere .nestingTooDeep
  stmt := Parser.failHere .nestingTooDeep
  stmts := Parser.failHere .nestingTooDeep

end GoTrace
