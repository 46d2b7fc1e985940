import GoTrace.Grammar.Types

/-!
# Expressions

The rules for expressions. Binary operators come in five levels: an operand of one level is a chain
of operands of the next tighter one, joined from the left. An operand behind the tightest level is a
unary operation or a primary expression, which is an operand with selectors, indices, calls and the
like behind it.
-/

namespace GoTrace.Grammar

open GoTrace.Parser

/-- One or more expressions with commas between them. -/
def exprList (rules : Nested) : Parser (List Expr × List Offset) := commaSeparated rules.expr

/-! ## Composite literals -/

/-- A key, a value, or a whole element: a literal without a type, or an expression. -/
def elementPart (rules : Nested) : Parser Expr := do
  if ← nextIsOp .lbrace then rules.literal none else rules.expr

/-- An element of a composite literal, with or without a key. -/
def element (rules : Nested) : Parser Expr := do
  let key ← elementPart rules
  match ← takeOp? .colon with
  | none => return key
  | some colon => return .keyValue key colon (← elementPart rules)

/-- An element and the comma behind it; it is the last if there is none. -/
def elementAndComma (rules : Nested) : Parser ((Expr × Option Offset) × Bool) := do
  let element ← element rules
  let comma? ← takeOp? .comma
  return ((element, comma?), comma?.isNone)

/-- The braces of a composite literal and what is between them. -/
def literal (rules : Nested) (type? : Option Expr) : Parser Expr := do
  let lbrace ← expectOp .lbrace
  let items ← withLiterals true (collect (nextIsOp .rbrace) (elementAndComma rules))
  let rbrace ← expectOp .rbrace
  return .compositeLit type? lbrace (items.map (·.1)) (items.filterMap (·.2)) rbrace

/-- Whether a brace behind an expression opens a composite literal of that type. Behind a name it
does so only where the rules around allow it. -/
def opensLiteral : Expr → Parser Bool
  | .ident _ | .selector _ _ _ | .index _ _ _ _ => return (← read).literals
  | .arrayType _ _ _ _ | .mapType _ _ _ _ _ | .structType _ _ => return true
  | _ => return false

/-! ## Calls -/

/-- An argument, the dots behind it, and the comma behind those. -/
structure Argument where
  value : Expr
  dots? : Option Offset
  comma? : Option Offset

/-- An argument of a call; it is the last if no comma is behind it. -/
def argument (rules : Nested) : Parser (Argument × Bool) := do
  let value ← rules.expr
  let dots? ← takeOp? .ellipsis
  let comma? ← takeOp? .comma
  return (⟨value, dots?, comma?⟩, comma?.isNone)

/-- A call of a function. Of several dots the last are kept. -/
def call (rules : Nested) (fn : Expr) : Parser Call := do
  let lparen ← expectOp .lparen
  let args ← withLiterals true (collect (nextIsOp .rparen) (argument rules))
  let rparen ← expectOp .rparen
  return ⟨fn, lparen, args.map (·.value), args.filterMap (·.comma?),
    (args.filterMap (·.dots?)).getLast?, rparen⟩

/-! ## Primary expressions -/

/-- A bound of a slice that may be missing, in which case one of the tokens `ends` is next. -/
def bound? (rules : Nested) (ends : List Operator) : Parser (Option Expr) := do
  match ← peekOp? with
  | some op => if op ∈ ends then return none else return some (← rules.expr)
  | none => return some (← rules.expr)

/-- The part of a slice behind its first colon. -/
def sliceRest (rules : Nested) (base : Expr) (lbrack : Offset) (low? : Option Expr) :
    Parser Expr := do
  let colon ← expectOp .colon
  let high? ← bound? rules [.colon, .rbrack]
  if ← nextIsOp .colon then
    if high?.isNone then failHere .missingMiddleIndex
    else
      let secondColon ← takePlace
      let max ← rules.expr
      let rbrack ← expectOp .rbrack
      return .slice base lbrack low? colon high? (some secondColon) (some max) rbrack
  else
    let rbrack ← expectOp .rbrack
    return .slice base lbrack low? colon high? none none rbrack

/-- An index, or a slice with two or three bounds. -/
def indexOrSlice (rules : Nested) (base : Expr) : Parser Expr := do
  let lbrack ← expectOp .lbrack
  match ← bound? rules [.colon] with
  | none => sliceRest rules base lbrack none
  | some first =>
    if ← nextIsOp .colon then sliceRest rules base lbrack (some first)
    else return .index base lbrack first (← expectOp .rbrack)

/-- A type assertion behind its period, or the guard of a type switch. -/
def typeAssert (rules : Nested) (base : Expr) (period : Offset) : Parser Expr := do
  let lparen ← expectOp .lparen
  if ← nextIsKeyword .typeKw then
    let keyword ← takePlace
    return .typeAssert base period lparen none (some keyword) (← expectOp .rparen)
  else
    let type ← rules.type
    return .typeAssert base period lparen (some type) none (← expectOp .rparen)

/-- A selector or a type assertion. -/
def selection (rules : Nested) (base : Expr) : Parser Expr := do
  let period ← takePlace
  if ← nextIsOp .lparen then typeAssert rules base period
  else return .selector base period (← expectIdent)

/-- A function literal, or a function type if no body follows. -/
def funcLit (rules : Nested) : Parser Expr := do
  let func ← expectKeyword .funcKw
  let type ← signature rules (some func)
  if ← nextIsOp .lbrace then return .funcLit type (← rules.block) else return .funcType type

/-- An expression between round brackets. -/
def parenExpr (rules : Nested) : Parser Expr := do
  let lparen ← takePlace
  let inner ← withLiterals true rules.expr
  return .paren lparen inner (← expectOp .rparen)

/-- What a primary expression begins with. -/
def operand (rules : Nested) : Parser Expr := do
  match ← peekKind? with
  | some (.ident _) => return .ident (← expectIdent)
  | some (.literal _ _) => return .basicLit (← expectLiteral)
  | some (.operator .lparen) => parenExpr rules
  | some (.operator .lbrack) => arrayType rules
  | some (.keyword .mapKw) => mapType rules
  | some (.keyword .structKw) => structType rules
  | some (.keyword .funcKw) => funcLit rules
  | some (.keyword .chanKw) => chanType rules
  | some (.keyword .interfaceKw) => interfaceType rules
  | _ => unexpected .expression

/-- Reads one more thing behind the primary expression `x`. -/
def primaryStep (rules : Nested) (x : Expr) : Parser (Turn Expr Expr) := do
  match ← peekOp? with
  | some .period => return .goOn (← selection rules x)
  | some .lbrack => return .goOn (← withLiterals true (indexOrSlice rules x))
  | some .lparen => return .goOn (.call (← call rules x))
  | some .lbrace =>
    if ← opensLiteral x then return .goOn (← rules.literal (some x)) else return .stop x
  | _ => return .stop x

/-- A primary expression. -/
def primary (rules : Nested) : Parser Expr := do
  iterate (primaryStep rules) (← operand rules)

/-! ## Operations -/

/-- A unary operation. -/
def unaryOp (rules : Nested) (op : Operator) : Parser Expr := do
  let place ← takePlace
  return .unary place op (← rules.operand)

/-- A dereference, or a pointer type. -/
def deref (rules : Nested) : Parser Expr := do
  let star ← takePlace
  return .star star (← rules.operand)

/-- A unary operation or a primary expression. An arrow in front of `chan` begins a type. -/
def unary (rules : Nested) : Parser Expr := do
  match ← peekOp? with
  | some .arrow =>
    if (← peekSecondKind?) == some (.keyword .chanKw) then chanType rules
    else unaryOp rules .arrow
  | some .add => unaryOp rules .add
  | some .sub => unaryOp rules .sub
  | some .not => unaryOp rules .not
  | some .xor => unaryOp rules .xor
  | some .and => unaryOp rules .and
  | some .mul => deref rules
  | _ => primary rules

/-- Reads one more operator of a level and the operand behind it. -/
def binaryStep (precedence : Nat) (operand : Parser Expr) (x : Expr) :
    Parser (Turn Expr Expr) := do
  match ← peekOp? with
  | some op =>
    if op.precedence = precedence then
      let place ← takePlace
      return .goOn (.binary x place op (← operand))
    else return .stop x
  | none => return .stop x

/-- An expression whose binary operators belong to the `levels` tightest levels. -/
def binary (rules : Nested) : (levels : Nat) → Parser Expr
  | 0 => rules.operand
  | levels + 1 => do
    iterate (binaryStep (5 - levels) (binary rules levels)) (← binary rules levels)

/-- An expression. -/
def expr (rules : Nested) : Parser Expr := binary rules 5

end GoTrace.Grammar
