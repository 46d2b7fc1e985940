import GoTrace.Grammar.Exprs

/-!
# Declarations and statements

The rules for imports, constants, variables and types, which may also stand among statements, and
for statements.

In the header of a statement a brace behind a name opens the body and not a composite literal; the
rules for headers are read with such literals switched off, and brackets switch them on again.
-/

namespace GoTrace.Grammar

open GoTrace.Parser

/-! ## Declarations of imports, constants, variables and types -/

/-- The name of an import; a period stands for one. -/
def importName? : Parser (Option Ident) := do
  if ← nextIsIdent then return some (← expectIdent)
  else
    match ← takeOp? .period with
    | some period => return some ⟨period, "."⟩
    | none => return none

/-- An import. -/
def importSpec : Parser Spec := do
  let name? ← importName?
  if ← nextIsString then return .importPath name? (← expectLiteral) else unexpected .importPath

/-- A type declaration, with or without the sign that makes it an alias. -/
def typeSpec (rules : Nested) : Parser Spec := do
  let name ← expectIdent
  let assign? ← takeOp? .assign
  return .typeName name assign? (← rules.type)

/-- Whether the names of a variable are followed by no type. -/
def endsNames : Option TokenKind → Bool
  | none | some (.operator .assign) | some (.semicolon _) | some (.operator .rparen) | some .eof =>
    true
  | _ => false

/-- Constants or variables. -/
def valueSpec (rules : Nested) : Parser Spec := do
  let (names, nameCommas) ← commaSeparated expectIdent
  let type? ← if endsNames (← peekKind?) then pure none else some <$> rules.type
  match ← takeOp? .assign with
  | some assign =>
    let (values, valueCommas) ← exprList rules
    return .values names nameCommas type? (some assign) values valueCommas
  | none => return .values names nameCommas type? none [] []

/-- One entry of a declaration that the keyword begins. -/
def spec (rules : Nested) : Keyword → Parser Spec
  | .importKw => importSpec
  | .typeKw => typeSpec rules
  | _ => valueSpec rules

/-- A declaration that the keyword begins. -/
def genDecl (rules : Nested) (keyword : Keyword) : Parser GenDecl := do
  let place ← expectKeyword keyword
  match ← takeOp? .lparen with
  | none => return ⟨place, keyword, none, [← spec rules keyword], none⟩
  | some lparen =>
    let specs ← many (nextIsOp .rparen) do
      let spec ← spec rules keyword
      endOfLine .rparen
      return spec
    let rparen ← expectOp .rparen
    return ⟨place, keyword, some lparen, specs, some rparen⟩

/-! ## Simple statements -/

/-- The only one of some expressions; fails with what the next token should be if there are several.
-/
def single (exprs : List Expr) (expected : Expectation) : Parser Expr :=
  match exprs with
  | [x] => return x
  | _ => unexpected expected

/-- The statement behind a label. If the block ends there, it is empty. -/
def labeledBody (rules : Nested) : Parser Stmt := do
  if ← nextIsOp .rbrace then return .empty (← peekSpan).start true else rules.stmt

/-- The right side of an assignment. -/
def assignment (rules : Nested) (left : List Expr) (leftCommas : List Offset) (place : Offset)
    (op : Operator) : Parser Stmt := do
  let (right, rightCommas) ← exprList rules
  return .assign left leftCommas place op right rightCommas

/-- A statement that is only an expression. -/
def exprStmt (left : List Expr) : Parser Stmt := return .expr (← single left .assignment)

/-- An increment or decrement. -/
def incDec (left : List Expr) (op : Operator) : Parser Stmt := do
  let x ← single left .singleOperand
  return .incDec x (← takePlace) op

/-- A statement that sends to a channel. -/
def send (rules : Nested) (left : List Expr) : Parser Stmt := do
  let channel ← single left .singleChannel
  let arrow ← takePlace
  return .send channel arrow (← rules.expr)

/-- A label, and the statement that it is for. Where labels may not stand, or in front of the colon
is no lone name, the colon is left alone. -/
def labeled (rules : Nested) (labels : Bool) (left : List Expr) : Parser Stmt :=
  match labels, left with
  | true, [.ident label] => do
    let colon ← takePlace
    return .labeled label colon (← labeledBody rules)
  | _, _ => exprStmt left

/-- The rest of a statement behind its first expressions; `labels` says whether it may be a label.
-/
def simpleRest (rules : Nested) (labels : Bool) (left : List Expr) (leftCommas : List Offset) :
    Parser Stmt := do
  match ← peekOp? with
  | none => exprStmt left
  | some op =>
    if op.isAssignment then assignment rules left leftCommas (← takePlace) op
    else
      match op with
      | .inc | .dec => incDec left op
      | .colon => labeled rules labels left
      | .arrow => send rules left
      | _ => exprStmt left

/-- An expression, assignment, increment, decrement or send; where labels may stand, also a labeled
statement. -/
def simpleStmt (rules : Nested) (labels : Bool) : Parser Stmt := do
  let (left, leftCommas) ← exprList rules
  simpleRest rules labels left leftCommas

/-! ## Headers -/

/-- The expression of a statement that stands for a condition. -/
def asCondition : Stmt → Parser Expr
  | .expr x => return x
  | stmt => failAt stmt.span .notACondition

/-- What is in front of the body of an `if`: a statement and a semicolon, which may be missing, and
a condition. -/
def ifHeader (rules : Nested) : Parser (Option Stmt × Option Offset × Expr) := do
  let stmt ← simpleStmt rules false
  if ← nextIsWrittenSemicolon then
    let semicolon ← takePlace
    return (some stmt, some semicolon, ← rules.expr)
  else return (none, none, ← asCondition stmt)

/-- What is behind `else`. -/
def elseBranch (rules : Nested) : Parser Stmt := do
  if ← nextIsKeyword .ifKw then rules.ifStmt
  else if ← nextIsOp .lbrace then return .block (← rules.block)
  else unexpected .ifOrBlock

/-- An `if` statement. -/
def ifStmt (rules : Nested) : Parser Stmt := do
  let place ← expectKeyword .ifKw
  let (init?, semicolon?, cond) ← withLiterals false (ifHeader rules)
  let body ← rules.block
  if ← nextIsKeyword .elseKw then
    let elsePlace ← takePlace
    return .ifStmt place init? semicolon? cond body (some elsePlace) (some (← elseBranch rules))
  else return .ifStmt place init? semicolon? cond body none none

/-- What is in front of the body of a loop. -/
inductive LoopHeader
  | forClause (init? : Option Stmt) (initSemicolon? : Option Offset) (cond? : Option Expr)
      (condSemicolon? : Option Offset) (post? : Option Stmt)
  | rangeClause (key? : Option Expr) (comma? : Option Offset) (value? : Option Expr)
      (opPlace? : Option Offset) (op? : Option Operator) (range : Offset) (operand : Expr)

/-- The loop with a header and a body. -/
def LoopHeader.toStmt (place : Offset) (body : Block) : LoopHeader → Stmt
  | forClause init? initSemicolon? cond? condSemicolon? post? =>
    .forStmt place init? initSemicolon? cond? condSemicolon? post? body
  | rangeClause key? comma? value? opPlace? op? range operand =>
    .rangeStmt place key? comma? value? opPlace? op? range operand body

/-- The part of a header behind its first statement, of which the first semicolon is next. -/
def forClauses (rules : Nested) (init? : Option Stmt) : Parser LoopHeader := do
  let initSemicolon ← expectWrittenSemicolon
  let cond? ← if ← nextIsWrittenSemicolon then pure none else some <$> rules.expr
  let condSemicolon ← expectWrittenSemicolon
  let post? ← if ← nextIsOp .lbrace then pure none else some <$> simpleStmt rules false
  return .forClause init? (some initSemicolon) cond? (some condSemicolon) post?

/-- The header that a statement begins: the statement is the first of three parts, or the condition.
-/
def forHeaderFrom (rules : Nested) (stmt : Stmt) : Parser LoopHeader := do
  if ← nextIsWrittenSemicolon then forClauses rules (some stmt)
  else return .forClause none none (some (← asCondition stmt)) none none

/-- The header of a loop over a range, behind the sign that assigns to its variables. -/
def rangeClause (rules : Nested) (left : List Expr) (leftCommas : List Offset) (opPlace : Offset)
    (op : Operator) : Parser LoopHeader := do
  let range ← expectKeyword .rangeKw
  let operand ← rules.expr
  return .rangeClause left.head? leftCommas.head? left[1]? (some opPlace) (some op) range operand

/-- Whether the variables of a range may be assigned so: one or two of them, by plain or declaring
assignment. -/
def allowsRange (left : List Expr) (op : Operator) : Bool :=
  (op == .assign || op == .define) && left.length ≤ 2

/-- The header of a loop that begins with expressions. -/
def exprHeader (rules : Nested) : Parser LoopHeader := do
  let (left, leftCommas) ← exprList rules
  match ← peekOp? with
  | none => forHeaderFrom rules (← exprStmt left)
  | some op =>
    if op.isAssignment then
      let place ← takePlace
      if allowsRange left op && (← nextIsKeyword .rangeKw) then
        rangeClause rules left leftCommas place op
      else forHeaderFrom rules (← assignment rules left leftCommas place op)
    else forHeaderFrom rules (← simpleRest rules false left leftCommas)

/-- The header of a loop. -/
def loopHeader (rules : Nested) : Parser LoopHeader := do
  if ← nextIsOp .lbrace then return .forClause none none none none none
  else if ← nextIsWrittenSemicolon then forClauses rules none
  else if ← nextIsKeyword .rangeKw then
    let range ← takePlace
    return .rangeClause none none none none none range (← rules.expr)
  else exprHeader rules

/-- A loop. -/
def forStmt (rules : Nested) : Parser Stmt := do
  let place ← expectKeyword .forKw
  let header ← withLiterals false (loopHeader rules)
  return header.toStmt place (← rules.block)

/-! ## Switches and selections -/

/-- Clauses between braces. -/
def clauseBlock (clause : Parser Stmt) : Parser Block := do
  let lbrace ← expectOp .lbrace
  let clauses ← many
    (return !((← nextIsKeyword .caseKw) || (← nextIsKeyword .defaultKw))) clause
  let rbrace ← expectOp .rbrace
  return ⟨lbrace, clauses, rbrace⟩

/-- A clause of a switch: expressions, or the keyword `default`, and statements. -/
def caseClause (rules : Nested) : Parser Stmt := do
  if ← nextIsKeyword .defaultKw then
    let place ← takePlace
    let colon ← expectOp .colon
    return .caseClause place .defaultKw [] [] colon (← rules.stmts)
  else
    let place ← takePlace
    let (exprs, commas) ← exprList rules
    let colon ← expectOp .colon
    return .caseClause place .caseKw exprs commas colon (← rules.stmts)

/-- A clause of a selection: a send or receive, or the keyword `default`, and statements. -/
def commClause (rules : Nested) : Parser Stmt := do
  if ← nextIsKeyword .defaultKw then
    let place ← takePlace
    let colon ← expectOp .colon
    return .commClause place .defaultKw none colon (← rules.stmts)
  else
    let place ← takePlace
    let comm ← simpleStmt rules false
    let colon ← expectOp .colon
    return .commClause place .caseKw (some comm) colon (← rules.stmts)

/-- What is in front of the body of a switch: a statement and a semicolon, which may be missing, and
what is switched on, still as a statement. -/
def switchHeader (rules : Nested) : Parser (Option Stmt × Option Offset × Option Stmt) := do
  if ← nextIsOp .lbrace then return (none, none, none)
  else
    let stmt ← simpleStmt rules false
    if ← nextIsWrittenSemicolon then
      let semicolon ← takePlace
      let tag? ← if ← nextIsOp .lbrace then pure none else some <$> simpleStmt rules false
      return (some stmt, some semicolon, tag?)
    else return (none, none, some stmt)

/-- Whether a statement is the guard of a type switch, with or without a name for the value. -/
def isTypeSwitchGuard : Stmt → Bool
  | .expr x => x.isTypeGuard
  | .assign [_] _ _ .define [x] _ => x.isTypeGuard
  | _ => false

/-- A switch over values or over types. What it switches on is judged when the body has been read.
-/
def switchStmt (rules : Nested) : Parser Stmt := do
  let place ← expectKeyword .switchKw
  let (init?, semicolon?, tag?) ← withLiterals false (switchHeader rules)
  let body ← clauseBlock (caseClause rules)
  match tag? with
  | none => return .switchStmt place init? semicolon? none body
  | some tag =>
    if isTypeSwitchGuard tag then return .typeSwitch place init? semicolon? tag body
    else return .switchStmt place init? semicolon? (some (← asCondition tag)) body

/-- A selection. -/
def selectStmt (rules : Nested) : Parser Stmt := do
  let place ← expectKeyword .selectKw
  return .selectStmt place (← clauseBlock (commClause rules))

/-! ## All statements -/

/-- The call behind `go` or `defer`. -/
def callOperand (rules : Nested) (keyword : Keyword) : Parser Call := do
  match ← rules.expr with
  | .call call => return call
  | other => failAt other.span (.notACall keyword)

/-- Whether nothing is behind `return`. -/
def endsReturn : Option TokenKind → Bool
  | some (.semicolon _) | some (.operator .rbrace) => true
  | _ => false

/-- A `return` statement. -/
def returnStmt (rules : Nested) : Parser Stmt := do
  let place ← takePlace
  if endsReturn (← peekKind?) then return .returnStmt place [] []
  else
    let (results, commas) ← exprList rules
    return .returnStmt place results commas

/-- A statement that goes elsewhere, with or without a label. -/
def branch (keyword : Keyword) : Parser Stmt := do
  let place ← takePlace
  let label? ← if ← nextIsIdent then some <$> expectIdent else pure none
  return .branch place keyword label?

/-- A statement that the keyword begins. -/
def keywordStmt (rules : Nested) : Keyword → Parser Stmt
  | .varKw => return .decl (← genDecl rules .varKw)
  | .constKw => return .decl (← genDecl rules .constKw)
  | .typeKw => return .decl (← genDecl rules .typeKw)
  | .returnKw => returnStmt rules
  | .breakKw => branch .breakKw
  | .continueKw => branch .continueKw
  | .gotoKw => branch .gotoKw
  | .fallthroughKw => return .branch (← takePlace) .fallthroughKw none
  | .ifKw => rules.ifStmt
  | .forKw => forStmt rules
  | .switchKw => switchStmt rules
  | .selectKw => selectStmt rules
  | .goKw => return .goStmt (← takePlace) (← callOperand rules .goKw)
  | .deferKw => return .deferStmt (← takePlace) (← callOperand rules .deferKw)
  | _ => simpleStmt rules true

/-- A statement. -/
def stmt (rules : Nested) : Parser Stmt := do
  match ← peekKind? with
  | some (.keyword word) => keywordStmt rules word
  | some (.operator .lbrace) => return .block (← rules.block)
  | some (.semicolon false) => return .empty (← takePlace) false
  | _ => simpleStmt rules true

/-- Whether a statement ends with a semicolon that is written, and so needs no other end. -/
def endsWithSemicolon : Stmt → Bool
  | .empty _ implicit => !implicit
  | .labeled _ _ stmt => endsWithSemicolon stmt
  | _ => false

/-- A statement and its end. -/
def stmtLine (rules : Nested) : Parser Stmt := do
  let stmt ← stmt rules
  if endsWithSemicolon stmt then return stmt
  else
    endOfLine .rbrace
    return stmt

/-- Whether the statements of a block or clause end in front of such a token. -/
def endsStmts : Option TokenKind → Bool
  | none | some .eof | some (.operator .rbrace) | some (.keyword .caseKw)
  | some (.keyword .defaultKw) => true
  | _ => false

/-- The statements of a block or clause. -/
def stmts (rules : Nested) : Parser (List Stmt) :=
  many (return endsStmts (← peekKind?)) (stmtLine rules)

/-- A block. -/
def block (rules : Nested) : Parser Block := do
  let lbrace ← expectOp .lbrace
  let stmts ← withLiterals true (stmts rules)
  return ⟨lbrace, stmts, ← expectOp .rbrace⟩

end GoTrace.Grammar
