import GoTrace.Proofs.Grammar.Program

/-!
# The programs of the rules

Each rule of the grammar is called, and its body is put together as it is written: it is opened, its
cases are told apart, and the search for instances goes through what is left. The loops are put
together by name, as for each it has to be known that its turns take tokens, which is said of all
rules at once by `moving_level`.

The number added to `n` in the type of a program is its height. No height depends on the tokens, and
those of the rules that go one level deeper count from the level on, so all are bounded by one number
(`maxHeight`).
-/

namespace GoTrace

namespace Grammar

open GoTrace.Parser

variable {d n : Nat}

/-! ## The rules that go one level deeper -/

instance : Program d n (Nested.level d).type := .nested .type

instance : Program d n (Nested.level d).expr := .nested .expr

instance : Program d n (Nested.level d).operand := .nested .operand

instance {type? : Option Expr} : Program d n ((Nested.level d).literal type?) :=
  .nested (.literal type?)

instance : Program d n (Nested.level d).block := .nested .block

instance : Program d n (Nested.level d).ifStmt := .nested .ifStmt

instance : Program d n (Nested.level d).stmt := .nested .stmt

instance : Program d n (Nested.level d).stmts := .nested .stmts

/-! ## Types -/

instance : Program d (n + 6) typeName := by
  refine .call (.seq inferInstance fun name => .seq inferInstance fun period? => ?_)
  cases period? <;> infer_instance

instance : Program d (n + 6) (arrayLength? (.level d)) := by
  refine .call (.seq inferInstance fun isRbrack => ?_)
  split
  · infer_instance
  · refine .seq inferInstance fun dots? => ?_
    cases dots? <;> infer_instance

instance : Program d (n + 8) (arrayType (.level d)) := by
  unfold arrayType
  exact .call inferInstance

instance : Program d (n + 5) (mapType (.level d)) := by
  unfold mapType
  exact .call inferInstance

instance : Program d (n + 6) (chanType (.level d)) := by
  refine .call (.seq inferInstance fun recv? => ?_)
  cases recv? with
  | some arrow => infer_instance
  | none =>
    refine .seq inferInstance fun chan => .seq inferInstance fun send? => ?_
    cases send? <;> infer_instance

instance : Program d (n + 5) (parenType (.level d)) := by
  unfold parenType
  exact .call inferInstance

instance : Program d (n + 4) (pointerType (.level d)) := by
  unfold pointerType
  exact .call inferInstance

/-- The loop over the fields between braces. -/
abbrev bracedFieldsProgram {field : Parser Field} [Program d (n + 2) field] (hfield : field.Moves) :
    Program d (n + 8) (bracedFields field) :=
  have : Program d (n + 6) (many (nextIsOp .rbrace) do
      let field ← field
      endOfLine .rbrace
      return field) :=
    .many (local_nextIsOp .rbrace)
      (hfield.bind fun _ => (local_endOfLine .rbrace).bind fun _ => local_pure)
  .call (.seq inferInstance fun _ => inferInstance)

instance : Program d (n + 6) tag? := by
  unfold tag?
  exact .call inferInstance

instance : Program d (n + 12) (Parser.commaSeparated expectIdent) := .commaSeparated moves_expectIdent

instance : Program d (n + 14) (structField (.level d)) := by
  unfold structField
  exact .call inferInstance

instance : Program d (n + 20) (bracedFields (structField (.level d))) :=
  bracedFieldsProgram (moves_structField (moving_level d))

instance : Program d (n + 22) (structType (.level d)) := by
  unfold structType
  exact .call inferInstance

instance : Program d (n + 6) (parameterType (.level d)) := by
  refine .call (.seq inferInstance fun dots? => ?_)
  cases dots? <;> infer_instance

instance : Program d (n + 8) (parameter (.level d)) := by
  unfold parameter
  exact .call inferInstance

/-- The loop over the entries of a parameter list. -/
instance : Program d (n + 10) (collect (nextIsOp .rparen) (parameter (.level d))) :=
  .collect (local_nextIsOp .rparen) (moves_parameter (moving_level d))

instance : Program d (n + 12) (parameters (.level d)) := by
  unfold parameters
  exact .call inferInstance

instance : Program d (n + 14) (results? (.level d)) := by
  unfold results?
  exact .call inferInstance

instance {func? : Option Offset} : Program d (n + 16) (signature (.level d) func?) := by
  unfold signature
  exact .call inferInstance

instance : Program d (n + 18) (interfaceElem (.level d)) := by
  unfold interfaceElem
  exact .call inferInstance

instance : Program d (n + 24) (bracedFields (interfaceElem (.level d))) :=
  bracedFieldsProgram (moves_interfaceElem (moving_level d))

instance : Program d (n + 26) (interfaceType (.level d)) := by
  unfold interfaceType
  exact .call inferInstance

instance : Program d (n + 18) (funcType (.level d)) := by
  unfold funcType
  exact .call inferInstance

instance : Program d (n + 27) (type (.level d)) := by
  refine .call (.seq inferInstance fun kind? => ?_)
  split <;> infer_instance

/-! ## Expressions -/

/-- The loop over the expressions of a list. -/
instance : Program d (n + 9) (exprList (.level d)) :=
  .call (.commaSeparated (moving_level d).expr)

instance : Program d (n + 2) (elementPart (.level d)) := by
  unfold elementPart
  exact .call inferInstance

instance : Program d (n + 6) (element (.level d)) := by
  refine .call (.seq inferInstance fun key => .seq inferInstance fun colon? => ?_)
  cases colon? <;> infer_instance

instance : Program d (n + 8) (elementAndComma (.level d)) := by
  unfold elementAndComma
  exact .call inferInstance

/-- The loop over the elements of a composite literal. -/
instance : Program d (n + 10) (collect (nextIsOp .rbrace) (elementAndComma (.level d))) :=
  .collect (local_nextIsOp .rbrace) (moves_elementAndComma (moving_level d))

instance {type? : Option Expr} : Program d (n + 13) (literal (.level d) type?) := by
  unfold literal
  exact .call inferInstance

instance {x : Expr} : Program d (n + 2) (opensLiteral x) := by
  cases x <;> unfold opensLiteral <;> exact .call inferInstance

instance : Program d (n + 6) (argument (.level d)) := by
  unfold argument
  exact .call inferInstance

/-- The loop over the arguments of a call. -/
instance : Program d (n + 8) (collect (nextIsOp .rparen) (argument (.level d))) :=
  .collect (local_nextIsOp .rparen) (moves_argument (moving_level d))

instance {fn : Expr} : Program d (n + 11) (call (.level d) fn) := by
  unfold call
  exact .call inferInstance

instance {ends : List Operator} : Program d (n + 2) (bound? (.level d) ends) := by
  refine .call (.seq inferInstance fun op? => ?_)
  cases op? <;> infer_instance

instance {base : Expr} {lbrack : Offset} {low? : Option Expr} :
    Program d (n + 5) (sliceRest (.level d) base lbrack low?) := by
  unfold sliceRest
  exact .call inferInstance

instance {base : Expr} : Program d (n + 6) (indexOrSlice (.level d) base) := by
  refine .call (.seq inferInstance fun lbrack => .seq inferInstance fun first? => ?_)
  cases first? <;> infer_instance

instance {base : Expr} {period : Offset} : Program d (n + 5) (typeAssert (.level d) base period) := by
  unfold typeAssert
  exact .call inferInstance

instance {base : Expr} : Program d (n + 6) (selection (.level d) base) := by
  unfold selection
  exact .call inferInstance

instance : Program d (n + 18) (funcLit (.level d)) := by
  unfold funcLit
  exact .call inferInstance

instance : Program d (n + 5) (parenExpr (.level d)) := by
  unfold parenExpr
  exact .call inferInstance

instance : Program d (n + 27) (operand (.level d)) := by
  refine .call (.seq inferInstance fun kind? => ?_)
  split <;> infer_instance

instance {x : Expr} : Program d (n + 13) (primaryStep (.level d) x) := by
  refine .call (.seq inferInstance fun op? => ?_)
  split <;> infer_instance

/-- The loop over what stands behind an operand. -/
instance {x : Expr} : Program d (n + 14) (iterate (primaryStep (.level d)) x) :=
  .loop id x inferInstance fun _ => localIf_primaryStep (moving_level d) fun h => h rfl

instance : Program d (n + 29) (primary (.level d)) := by
  unfold primary
  exact .call inferInstance

instance {op : Operator} : Program d (n + 4) (unaryOp (.level d) op) := by
  unfold unaryOp
  exact .call inferInstance

instance : Program d (n + 4) (deref (.level d)) := by
  unfold deref
  exact .call inferInstance

instance : Program d (n + 30) (unary (.level d)) := by
  refine .call (.seq inferInstance fun op? => ?_)
  split <;> infer_instance

instance {precedence : Nat} {operand : Parser Expr} [Program d (n + 2) operand] {x : Expr} :
    Program d (n + 4) (binaryStep precedence operand x) := by
  refine .call (.seq inferInstance fun op? => ?_)
  cases op? <;> infer_instance

/-- The loop over the operators of a level. The chain of the next tighter level is an operand of it,
so five levels are five calls in each other. -/
abbrev binarySucc {levels : Nat} (lower : Program d (n + 2) (binary (.level d) levels)) :
    Program d (n + 6) (binary (.level d) (levels + 1)) :=
  have first : Program d (n + 4) (binary (.level d) levels) := lower.lift 2
  .call (.seq first fun x => .loop id x inferInstance fun _ =>
    localIf_binaryStep (moves_binary (moving_level d) levels).local _ fun h => h rfl)

instance : Program d (n + 23) (expr (.level d)) :=
  .call (binarySucc (binarySucc (binarySucc (binarySucc (binarySucc (.nested .operand))))))

/-! ## Declarations -/

instance : Program d (n + 6) importName? := by
  refine .call (.seq inferInstance fun isIdent => ?_)
  split
  · infer_instance
  · refine .seq inferInstance fun period? => ?_
    cases period? <;> infer_instance

instance : Program d (n + 8) importSpec := by
  unfold importSpec
  exact .call inferInstance

instance : Program d (n + 6) (typeSpec (.level d)) := by
  unfold typeSpec
  exact .call inferInstance

instance : Program d (n + 14) (valueSpec (.level d)) := by
  refine .call (.seq inferInstance fun (names, nameCommas) => .seq inferInstance fun kind? => ?_)
  split <;> refine .seq inferInstance fun type? => .seq inferInstance fun assign? => ?_ <;>
    cases assign? <;> infer_instance

instance {keyword : Keyword} : Program d (n + 15) (spec (.level d) keyword) := by
  unfold spec
  split <;> exact .call inferInstance

/-- The loop over the entries of a declaration between brackets. -/
instance {keyword : Keyword} : Program d (n + 19) (many (nextIsOp .rparen) do
    let spec ← spec (.level d) keyword
    endOfLine .rparen
    return spec) :=
  .many (local_nextIsOp .rparen) ((moves_spec (moving_level d) keyword).bind fun _ =>
    (local_endOfLine .rparen).bind fun _ => local_pure)

instance {keyword : Keyword} : Program d (n + 21) (genDecl (.level d) keyword) := by
  refine .call (.seq inferInstance fun place => .seq inferInstance fun lparen? => ?_)
  cases lparen? <;> infer_instance

/-! ## Statements -/

instance {exprs : List Expr} {expected : Expectation} : Program d (n + 1) (single exprs expected) := by
  unfold single
  split <;> exact .call inferInstance

instance : Program d (n + 2) (labeledBody (.level d)) := by
  unfold labeledBody
  exact .call inferInstance

instance {left : List Expr} {leftCommas : List Offset} {place : Offset} {op : Operator} :
    Program d (n + 11) (assignment (.level d) left leftCommas place op) := by
  unfold assignment
  exact .call inferInstance

instance {left : List Expr} : Program d (n + 3) (exprStmt left) := by
  unfold exprStmt
  exact .call inferInstance

instance {left : List Expr} {op : Operator} : Program d (n + 4) (incDec left op) := by
  unfold incDec
  exact .call inferInstance

instance {left : List Expr} : Program d (n + 4) (send (.level d) left) := by
  unfold send
  exact .call inferInstance

instance {labels : Bool} {left : List Expr} : Program d (n + 4) (labeled (.level d) labels left) := by
  unfold labeled
  split <;> exact .call inferInstance

instance {labels : Bool} {left : List Expr} {leftCommas : List Offset} :
    Program d (n + 12) (simpleRest (.level d) labels left leftCommas) := by
  refine .call (.seq inferInstance fun op? => ?_)
  cases op? with
  | none => infer_instance
  | some op =>
    dsimp only
    split
    · infer_instance
    · split <;> infer_instance

instance {labels : Bool} : Program d (n + 13) (simpleStmt (.level d) labels) := by
  unfold simpleStmt
  exact .call inferInstance

/-! ## Headers -/

instance {stmt : Stmt} : Program d (n + 1) (asCondition stmt) := by
  unfold asCondition
  split <;> exact .call inferInstance

instance : Program d (n + 15) (ifHeader (.level d)) := by
  unfold ifHeader
  exact .call inferInstance

instance : Program d (n + 2) (elseBranch (.level d)) := by
  unfold elseBranch
  exact .call inferInstance

instance : Program d (n + 18) (ifStmt (.level d)) := by
  unfold ifStmt
  exact .call inferInstance

instance {init? : Option Stmt} : Program d (n + 16) (forClauses (.level d) init?) := by
  refine .call (.seq inferInstance fun initSemicolon => .seq inferInstance fun isSemicolon => ?_)
  split <;> exact .seq inferInstance fun cond? => inferInstance

instance {stmt : Stmt} : Program d (n + 17) (forHeaderFrom (.level d) stmt) := by
  unfold forHeaderFrom
  exact .call inferInstance

instance {left : List Expr} {leftCommas : List Offset} {opPlace : Offset} {op : Operator} :
    Program d (n + 5) (rangeClause (.level d) left leftCommas opPlace op) := by
  unfold rangeClause
  exact .call inferInstance

instance : Program d (n + 18) (exprHeader (.level d)) := by
  refine .call (.seq inferInstance fun (left, leftCommas) => .seq inferInstance fun op? => ?_)
  cases op? <;> infer_instance

instance : Program d (n + 19) (loopHeader (.level d)) := by
  unfold loopHeader
  exact .call inferInstance

instance : Program d (n + 22) (forStmt (.level d)) := by
  unfold forStmt
  exact .call inferInstance

/-! ## Switches and selections -/

/-- The loop over the clauses between braces. -/
abbrev clauseBlockProgram {clause : Parser Stmt} [Program d (n + 1) clause] (hclause : clause.Moves) :
    Program d (n + 6) (clauseBlock clause) :=
  have : Program d (n + 4)
      (many (return !((← nextIsKeyword .caseKw) || (← nextIsKeyword .defaultKw))) clause) :=
    .many ((local_nextIsKeyword .caseKw).bind fun _ =>
      (local_nextIsKeyword .defaultKw).bind fun _ => local_pure) hclause
  .call (.seq inferInstance fun _ => inferInstance)

instance : Program d (n + 11) (caseClause (.level d)) := by
  unfold caseClause
  exact .call inferInstance

instance : Program d (n + 16) (clauseBlock (caseClause (.level d))) :=
  clauseBlockProgram (moves_caseClause (moving_level d))

instance : Program d (n + 15) (commClause (.level d)) := by
  unfold commClause
  exact .call inferInstance

instance : Program d (n + 20) (clauseBlock (commClause (.level d))) :=
  clauseBlockProgram (moves_commClause (moving_level d))

instance : Program d (n + 16) (switchHeader (.level d)) := by
  refine .call (.seq inferInstance fun isLbrace => ?_)
  split
  · infer_instance
  · refine .seq inferInstance fun stmt => .seq inferInstance fun isSemicolon => ?_
    split <;> infer_instance

instance : Program d (n + 19) (switchStmt (.level d)) := by
  refine .call (.seq inferInstance fun place => .seq inferInstance
    fun (init?, semicolon?, tag?) => .seq inferInstance fun body => ?_)
  cases tag? <;> infer_instance

instance : Program d (n + 22) (selectStmt (.level d)) := by
  unfold selectStmt
  exact .call inferInstance

/-! ## All statements -/

instance {keyword : Keyword} : Program d (n + 2) (callOperand (.level d) keyword) := by
  refine .call (.seq inferInstance fun x => ?_)
  split <;> infer_instance

instance : Program d (n + 11) (returnStmt (.level d)) := by
  unfold returnStmt
  exact .call inferInstance

instance {keyword : Keyword} : Program d (n + 7) (branch keyword) := by
  unfold branch
  exact .call inferInstance

instance {keyword : Keyword} : Program d (n + 23) (keywordStmt (.level d) keyword) := by
  unfold keywordStmt
  split <;> exact .call inferInstance

instance : Program d (n + 24) (stmt (.level d)) := by
  refine .call (.seq inferInstance fun kind? => ?_)
  split <;> infer_instance

instance : Program d (n + 26) (stmtLine (.level d)) := by
  unfold stmtLine
  exact .call inferInstance

/-- The loop over the statements of a block or clause. -/
instance : Program d (n + 30) (stmts (.level d)) :=
  .call (.many (local_peekKind?.bind fun _ => local_pure) (moves_stmtLine (moving_level d)))

instance : Program d (n + 33) (block (.level d)) := by
  unfold block
  exact .call inferInstance

/-! ## Files -/

instance : Program d (n + 18) (funcDecl (.level d)) := by
  refine .call (.seq inferInstance fun func => .seq inferInstance fun isLparen => ?_)
  split <;> exact .seq inferInstance fun receiver? => inferInstance

instance : Program d (n + 23) (decl (.level d)) := by
  refine .call (.seq inferInstance fun keyword? => ?_)
  split <;> infer_instance

instance : Program d (n + 25) (declLine (.level d)) := by
  unfold declLine
  exact .call inferInstance

/-- The loop over the declarations of a file. -/
instance : Program d (n + 28) (many atEnd (declLine (.level d))) :=
  .many local_atEnd (moves_declLine (moving_level d))

-- for the comments of the tokens taken, no look at the next ones is needed
instance : Program d (n + 30) (file (.level d)) :=
  .call (.seq inferInstance fun _ => .seq inferInstance fun _ => .seq inferInstance fun _ =>
    .seq inferInstance fun _ => .seq inferInstance fun _ => .atom (.look 0 fun _ _ => rfl))

end Grammar

end GoTrace
