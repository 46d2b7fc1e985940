import GoTrace.Proofs.Grammar.Local

/-!
# The rules of the grammar are local

Each rule is local, and all but the rule for the statements of a block take a token (`Nested.Moving`
says so of the rules that go one level deeper). The proofs follow the rules: a sequence is local
part by part, and it takes a token where a token is expected in it or a rule is called that takes
one.
-/

namespace GoTrace

/-- The rules that go one level deeper are local, and they take tokens. A list of statements may be
empty. -/
structure Nested.Moving (rules : Nested) : Prop where
  type : rules.type.Moves
  expr : rules.expr.Moves
  operand : rules.operand.Moves
  literal : ∀ type?, (rules.literal type?).Moves
  block : rules.block.Moves
  ifStmt : rules.ifStmt.Moves
  stmt : rules.stmt.Moves
  stmts : rules.stmts.Local

namespace Grammar

open GoTrace.Parser

variable {rules : Nested} (moving : rules.Moving)

/-! ## Types -/

theorem moves_typeName : typeName.Moves := by
  refine moves_expectIdent.bind fun name => (local_takeOp? .period).bind fun period? => ?_
  cases period? with
  | none => exact local_pure
  | some period => exact moves_expectIdent.bind fun _ => local_pure

include moving

theorem local_arrayLength? : (arrayLength? rules).Local := by
  refine (local_nextIsOp .rbrack).bind fun _ => .ite local_pure ?_
  refine (local_takeOp? .ellipsis).bind fun dots? => ?_
  cases dots? with
  | none => exact moving.expr.withLiterals.bind fun _ => local_pure
  | some dots => exact local_pure

theorem moves_arrayType : (arrayType rules).Moves :=
  (moves_expectOp .lbrack).bind fun _ => (local_arrayLength? moving).bind fun _ =>
    (moves_expectOp .rbrack).bind fun _ => moving.type.bind fun _ => local_pure

theorem moves_mapType : (mapType rules).Moves :=
  (moves_expectKeyword .mapKw).bind fun _ => (moves_expectOp .lbrack).bind fun _ =>
    moving.type.bind fun _ => (moves_expectOp .rbrack).bind fun _ =>
      moving.type.bind fun _ => local_pure

theorem moves_chanType : (chanType rules).Moves := by
  refine (local_takeOp? .arrow).bind fun recv? => ?_
  cases recv? with
  | some arrow =>
    exact (moves_expectKeyword .chanKw).bind fun _ => moving.type.bind fun _ => local_pure
  | none =>
    refine (moves_expectKeyword .chanKw).bind fun _ => (local_takeOp? .arrow).bind fun send? => ?_
    cases send? with
    | some arrow => exact moving.type.bind fun _ => local_pure
    | none => exact moving.type.bind fun _ => local_pure

theorem moves_parenType : (parenType rules).Moves :=
  moves_takePlace.bind fun _ => moving.type.bind fun _ =>
    (moves_expectOp .rparen).bind fun _ => local_pure

theorem moves_pointerType : (pointerType rules).Moves :=
  moves_takePlace.bind fun _ => moving.type.bind fun _ => local_pure

omit moving in
theorem moves_bracedFields {field : Parser Field} (hfield : field.Moves) :
    (bracedFields field).Moves := by
  refine (moves_expectOp .lbrace).bind fun _ => Local.bind (local_many (local_nextIsOp .rbrace) ?_)
    fun _ => (moves_expectOp .rbrace).bind fun _ => local_pure
  exact hfield.bind fun _ => (local_endOfLine .rbrace).bind fun _ => local_pure

omit moving in
theorem local_tag? : tag?.Local :=
  local_nextIsString.bind fun _ => .ite (moves_expectLiteral.bind fun _ => local_pure) local_pure

theorem moves_structField : (structField rules).Moves := by
  refine localIf_ident_second (fun isIdent second => ?_) fun _ _ => rfl
  refine .ite ?_ ?_
  · exact (moves_commaSeparated moves_expectIdent).bind fun _ =>
      moving.type.bind fun _ => local_tag?.bind fun _ => local_pure
  · exact local_pure.bind fun _ => moving.type.bind fun _ => local_tag?.bind fun _ => local_pure

theorem moves_structType : (structType rules).Moves :=
  (moves_expectKeyword .structKw).bind fun _ =>
    (moves_bracedFields (moves_structField moving)).bind fun _ => local_pure

theorem moves_parameterType : (parameterType rules).Moves := by
  refine (local_takeOp? .ellipsis).bind fun dots? => ?_
  cases dots? with
  | none => exact moving.type
  | some dots => exact moving.type.bind fun _ => local_pure

theorem moves_parameter : (parameter rules).Moves := by
  refine localIf_ident_second (fun isIdent second => ?_) fun _ _ => rfl
  refine .ite ?_ ?_
  · exact moves_expectIdent.map.bind fun _ => (moves_parameterType moving).bind fun _ =>
      (local_takeOp? .comma).bind fun _ => local_pure
  · exact local_pure.bind fun _ => (moves_parameterType moving).bind fun _ =>
      (local_takeOp? .comma).bind fun _ => local_pure

theorem moves_parameters : (parameters rules).Moves :=
  (moves_expectOp .lparen).bind fun _ =>
    (local_collect (local_nextIsOp .rparen) (moves_parameter moving)).bind fun _ =>
      (moves_expectOp .rparen).bind fun _ => local_fromExcept.bind fun _ => local_pure

theorem local_results? : (results? rules).Local :=
  (local_nextIsOp .lparen).bind fun _ =>
    .ite ((moves_parameters moving).bind fun _ => local_pure) <|
      local_peekKind?.bind fun _ => .ite (moving.type.bind fun _ => local_pure) local_pure

theorem moves_signature (func? : Option Offset) : (signature rules func?).Moves :=
  (moves_parameters moving).bind fun _ => (local_results? moving).bind fun _ => local_pure

theorem moves_interfaceElem : (interfaceElem rules).Moves := by
  refine localIf_ident_second (fun isIdent second => ?_) fun _ _ => rfl
  refine .ite ?_ ?_
  · exact moves_expectIdent.bind fun _ => (moves_signature moving none).bind fun _ => local_pure
  · exact moving.type.bind fun _ => local_pure

theorem moves_interfaceType : (interfaceType rules).Moves :=
  (moves_expectKeyword .interfaceKw).bind fun _ =>
    (moves_bracedFields (moves_interfaceElem moving)).bind fun _ => local_pure

theorem moves_funcType : (funcType rules).Moves :=
  moves_takePlace.bind fun _ => (moves_signature moving _).bind fun _ => local_pure

theorem moves_type : (type rules).Moves := by
  refine local_peekKind?.bind fun kind? => ?_
  split
  · exact moves_typeName
  · exact moves_pointerType moving
  · exact moves_arrayType moving
  · exact moves_chanType moving
  · exact moves_parenType moving
  · exact moves_mapType moving
  · exact moves_structType moving
  · exact moves_funcType moving
  · exact moves_chanType moving
  · exact moves_interfaceType moving
  · exact localIf_unexpected

/-! ## Expressions -/

theorem moves_exprList : (exprList rules).Moves := moves_commaSeparated moving.expr

theorem moves_elementPart : (elementPart rules).Moves :=
  (local_nextIsOp .lbrace).bind fun _ => .ite (moving.literal none) moving.expr

theorem moves_element : (element rules).Moves := by
  refine (moves_elementPart moving).bind fun key => (local_takeOp? .colon).bind fun colon? => ?_
  cases colon? with
  | none => exact local_pure
  | some colon => exact (moves_elementPart moving).bind fun _ => local_pure

theorem moves_elementAndComma : (elementAndComma rules).Moves :=
  (moves_element moving).bind fun _ => (local_takeOp? .comma).bind fun _ => local_pure

theorem moves_literal (type? : Option Expr) : (literal rules type?).Moves :=
  (moves_expectOp .lbrace).bind fun _ =>
    (local_collect (local_nextIsOp .rbrace) (moves_elementAndComma moving)).withLiterals.bind
      fun _ => (moves_expectOp .rbrace).bind fun _ => local_pure

omit moving in
theorem local_opensLiteral (x : Expr) : (opensLiteral x).Local := by
  cases x with
  | ident | selector | index => exact local_read.bind fun _ => local_pure
  | _ => exact local_pure

theorem moves_argument : (argument rules).Moves :=
  moving.expr.bind fun _ => (local_takeOp? .ellipsis).bind fun _ =>
    (local_takeOp? .comma).bind fun _ => local_pure

theorem moves_call (fn : Expr) : (call rules fn).Moves :=
  (moves_expectOp .lparen).bind fun _ =>
    (local_collect (local_nextIsOp .rparen) (moves_argument moving)).withLiterals.bind
      fun _ => (moves_expectOp .rparen).bind fun _ => local_pure

theorem local_bound? (ends : List Operator) : (bound? rules ends).Local := by
  refine local_peekOp?.bind fun op? => ?_
  cases op? with
  | none => exact moving.expr.bind fun _ => local_pure
  | some op => exact .ite local_pure (moving.expr.bind fun _ => local_pure)

theorem moves_sliceRest (base : Expr) (lbrack : Offset) (low? : Option Expr) :
    (sliceRest rules base lbrack low?).Moves := by
  refine (moves_expectOp .colon).bind fun colon => (local_bound? moving _).bind fun high? => ?_
  refine (local_nextIsOp .colon).bind fun _ => .ite (.ite localIf_failHere ?_) ?_
  · exact moves_takePlace.bind fun _ => moving.expr.local.bind fun _ =>
      (moves_expectOp .rbrack).bind fun _ => local_pure
  · exact (moves_expectOp .rbrack).bind fun _ => local_pure

theorem moves_indexOrSlice (base : Expr) : (indexOrSlice rules base).Moves := by
  refine (moves_expectOp .lbrack).bind fun lbrack => (local_bound? moving _).bind fun first? => ?_
  cases first? with
  | none => exact (moves_sliceRest moving base lbrack none).local
  | some first =>
    refine (local_nextIsOp .colon).bind fun _ => .ite ?_ ?_
    · exact (moves_sliceRest moving base lbrack (some first)).local
    · exact (moves_expectOp .rbrack).bind fun _ => local_pure

theorem moves_typeAssert (base : Expr) (period : Offset) :
    (typeAssert rules base period).Moves := by
  refine (moves_expectOp .lparen).bind fun _ => (local_nextIsKeyword .typeKw).bind fun _ => ?_
  refine .ite ?_ ?_
  · exact moves_takePlace.bind fun _ => (moves_expectOp .rparen).bind fun _ => local_pure
  · exact moving.type.bind fun _ => (moves_expectOp .rparen).bind fun _ => local_pure

theorem moves_selection (base : Expr) : (selection rules base).Moves :=
  moves_takePlace.bind fun _ => (local_nextIsOp .lparen).bind fun _ =>
    .ite (moves_typeAssert moving base _).local (moves_expectIdent.bind fun _ => local_pure)

theorem moves_funcLit : (funcLit rules).Moves :=
  (moves_expectKeyword .funcKw).bind fun _ => (moves_signature moving _).local.bind fun _ =>
    (local_nextIsOp .lbrace).bind fun _ => .ite (moving.block.bind fun _ => local_pure) local_pure

theorem moves_parenExpr : (parenExpr rules).Moves :=
  moves_takePlace.bind fun _ => moving.expr.withLiterals.bind fun _ =>
    (moves_expectOp .rparen).bind fun _ => local_pure

theorem moves_operand : (operand rules).Moves := by
  refine local_peekKind?.bind fun kind? => ?_
  split
  · exact moves_expectIdent.bind fun _ => local_pure
  · exact moves_expectLiteral.bind fun _ => local_pure
  · exact moves_parenExpr moving
  · exact moves_arrayType moving
  · exact moves_mapType moving
  · exact moves_structType moving
  · exact moves_funcLit moving
  · exact moves_chanType moving
  · exact moves_interfaceType moving
  · exact localIf_unexpected

theorem localIf_primaryStep {x : Expr} {moved : Turn Expr Expr → Prop} (h : ¬moved (.stop x)) :
    (primaryStep rules x).LocalIf moved := by
  have hstop : (pure (.stop x) : Parser (Turn Expr Expr)).LocalIf moved := localIf_pure h
  refine local_peekOp?.bind fun op? => ?_
  split
  · exact (moves_selection moving x).bind fun _ => local_pure
  · exact (moves_indexOrSlice moving x).withLiterals.bind fun _ => local_pure
  · exact (moves_call moving x).bind fun _ => local_pure
  · refine (local_opensLiteral x).bind fun _ => .ite ?_ hstop
    exact (moving.literal (some x)).bind fun _ => local_pure
  · exact hstop

theorem moves_primary : (primary rules).Moves :=
  (moves_operand moving).bind (local_iterate fun _ => localIf_primaryStep moving id)

theorem moves_unaryOp (op : Operator) : (unaryOp rules op).Moves :=
  moves_takePlace.bind fun _ => moving.operand.bind fun _ => local_pure

theorem moves_deref : (deref rules).Moves :=
  moves_takePlace.bind fun _ => moving.operand.bind fun _ => local_pure

theorem moves_unary : (unary rules).Moves := by
  refine peeks_peekOp?.localIf_bind (fun h => by rw [nextKind?_of_agree h]) fun st => ?_
  split
  · rename_i harrow
    -- the token behind the arrow is looked at
    have hnext : st.nextKind? = some (.operator .arrow) := by
      split at harrow
      · rename_i hnext
        rw [hnext, Option.some.inj harrow]
      · cases harrow
    refine localAt_second hnext rfl fun second => ?_
    exact .ite (moves_chanType moving) (moves_unaryOp moving .arrow)
  · exact moves_unaryOp moving .add st
  · exact moves_unaryOp moving .sub st
  · exact moves_unaryOp moving .not st
  · exact moves_unaryOp moving .xor st
  · exact moves_unaryOp moving .and st
  · exact moves_deref moving st
  · exact moves_primary moving st

omit moving in
theorem localIf_binaryStep {operand : Parser Expr} (hoperand : operand.Local) (precedence : Nat)
    {x : Expr} {moved : Turn Expr Expr → Prop} (h : ¬moved (.stop x)) :
    (binaryStep precedence operand x).LocalIf moved := by
  refine local_peekOp?.bind fun op? => ?_
  cases op? with
  | none => exact localIf_pure h
  | some op =>
    refine .ite ?_ (localIf_pure h)
    exact moves_takePlace.bind fun _ => hoperand.bind fun _ => local_pure

theorem moves_binary (levels : Nat) : (binary rules levels).Moves := by
  induction levels with
  | zero => exact moving.operand
  | succ levels ih => exact ih.bind (local_iterate fun _ => localIf_binaryStep ih.local _ id)

theorem moves_expr : (expr rules).Moves := moves_binary moving 5

/-! ## Declarations -/

omit moving in
theorem local_importName? : importName?.Local := by
  refine local_nextIsIdent.bind fun _ => .ite (moves_expectIdent.bind fun _ => local_pure) ?_
  refine (local_takeOp? .period).bind fun period? => ?_
  cases period? with
  | none => exact local_pure
  | some period => exact local_pure

omit moving in
theorem moves_importSpec : importSpec.Moves :=
  local_importName?.bind fun _ => local_nextIsString.bind fun _ =>
    .ite (moves_expectLiteral.bind fun _ => local_pure) localIf_unexpected

theorem moves_typeSpec : (typeSpec rules).Moves :=
  moves_expectIdent.bind fun _ => (local_takeOp? .assign).bind fun _ =>
    moving.type.bind fun _ => local_pure

private theorem local_assignedValues (names : List Ident) (nameCommas : List Offset)
    (type? : Option Expr) : Local (do
      match ← takeOp? .assign with
      | some assign =>
        let (values, valueCommas) ← exprList rules
        return Spec.values names nameCommas type? (some assign) values valueCommas
      | none => return Spec.values names nameCommas type? none [] []) := by
  refine (local_takeOp? .assign).bind fun assign? => ?_
  cases assign? with
  | none => exact local_pure
  | some assign => exact (moves_exprList moving).bind fun _ => local_pure

theorem moves_valueSpec : (valueSpec rules).Moves := by
  refine (moves_commaSeparated moves_expectIdent).bind fun (names, nameCommas) => ?_
  refine local_peekKind?.bind fun _ => .ite ?_ ?_
  · exact local_pure.bind (local_assignedValues moving names nameCommas)
  · exact moving.type.map.local.bind (local_assignedValues moving names nameCommas)

theorem moves_spec (keyword : Keyword) : (spec rules keyword).Moves := by
  unfold spec
  split
  · exact moves_importSpec
  · exact moves_typeSpec moving
  · exact moves_valueSpec moving

theorem moves_genDecl (keyword : Keyword) : (genDecl rules keyword).Moves := by
  refine (moves_expectKeyword keyword).bind fun _ => (local_takeOp? .lparen).bind fun lparen? => ?_
  cases lparen? with
  | none => exact (moves_spec moving keyword).bind fun _ => local_pure
  | some lparen =>
    refine Local.bind (local_many (local_nextIsOp .rparen) ?_) fun _ =>
      (moves_expectOp .rparen).bind fun _ => local_pure
    exact (moves_spec moving keyword).bind fun _ => (local_endOfLine .rparen).bind fun _ =>
      local_pure

/-! ## Simple statements -/

omit moving in
theorem local_single (exprs : List Expr) (expected : Expectation) :
    (single exprs expected).Local := by
  unfold single
  split
  · exact local_pure
  · exact localIf_unexpected

theorem local_labeledBody : (labeledBody rules).Local :=
  (local_nextIsOp .rbrace).bind fun _ =>
    .ite (local_peekSpan.bind fun _ => local_pure) moving.stmt.local

theorem moves_assignment (left : List Expr) (leftCommas : List Offset) (place : Offset)
    (op : Operator) : (assignment rules left leftCommas place op).Moves :=
  (moves_exprList moving).bind fun _ => local_pure

omit moving in
theorem local_exprStmt (left : List Expr) : (exprStmt left).Local :=
  (local_single left .assignment).bind fun _ => local_pure

omit moving in
theorem local_incDec (left : List Expr) (op : Operator) : (incDec left op).Local :=
  (local_single left .singleOperand).bind fun _ => moves_takePlace.bind fun _ => local_pure

theorem local_send (left : List Expr) : (send rules left).Local :=
  (local_single left .singleChannel).bind fun _ => moves_takePlace.bind fun _ =>
    moving.expr.bind fun _ => local_pure

theorem local_labeled (labels : Bool) (left : List Expr) : (labeled rules labels left).Local := by
  unfold labeled
  split
  · exact moves_takePlace.bind fun _ => (local_labeledBody moving).bind fun _ => local_pure
  · exact local_exprStmt left

theorem local_simpleRest (labels : Bool) (left : List Expr) (leftCommas : List Offset) :
    (simpleRest rules labels left leftCommas).Local := by
  refine local_peekOp?.bind fun op? => ?_
  cases op? with
  | none => exact local_exprStmt left
  | some op =>
    refine .ite (moves_takePlace.bind fun _ => (moves_assignment moving _ _ _ _).local) ?_
    split
    · exact local_incDec left _
    · exact local_incDec left _
    · exact local_labeled moving labels left
    · exact local_send moving left
    · exact local_exprStmt left

theorem moves_simpleStmt (labels : Bool) : (simpleStmt rules labels).Moves :=
  (moves_exprList moving).bind fun (left, leftCommas) =>
    local_simpleRest moving labels left leftCommas

/-! ## Headers -/

omit moving in
theorem local_asCondition (stmt : Stmt) : (asCondition stmt).Local := by
  unfold asCondition
  split
  · exact local_pure
  · exact localIf_failAt

theorem local_ifHeader : (ifHeader rules).Local :=
  (moves_simpleStmt moving false).bind fun stmt => local_nextIsWrittenSemicolon.bind fun _ =>
    .ite (moves_takePlace.bind fun _ => moving.expr.bind fun _ => local_pure)
      ((local_asCondition stmt).bind fun _ => local_pure)

theorem local_elseBranch : (elseBranch rules).Local :=
  (local_nextIsKeyword .ifKw).bind fun _ => .ite moving.ifStmt.local <|
    (local_nextIsOp .lbrace).bind fun _ =>
      .ite (moving.block.bind fun _ => local_pure) localIf_unexpected

theorem moves_ifStmt : (ifStmt rules).Moves :=
  (moves_expectKeyword .ifKw).bind fun _ => (local_ifHeader moving).withLiterals.bind fun _ =>
    moving.block.local.bind fun _ => (local_nextIsKeyword .elseKw).bind fun _ =>
      .ite (moves_takePlace.bind fun _ => (local_elseBranch moving).bind fun _ => local_pure)
        local_pure

theorem local_forClauses (init? : Option Stmt) : (forClauses rules init?).Local := by
  have hpost : ∀ initSemicolon cond? condSemicolon, Local (do
      let post? ← if ← nextIsOp .lbrace then pure none else some <$> simpleStmt rules false
      return LoopHeader.forClause init? (some initSemicolon) cond? (some condSemicolon) post?) := by
    intro initSemicolon cond? condSemicolon
    refine (local_nextIsOp .lbrace).bind fun _ => .ite ?_ ?_
    · exact local_pure.bind fun _ => local_pure
    · exact (moves_simpleStmt moving false).map.bind fun _ => local_pure
  have hcond : ∀ initSemicolon cond?, Local (do
      let condSemicolon ← expectWrittenSemicolon
      let post? ← if ← nextIsOp .lbrace then pure none else some <$> simpleStmt rules false
      return LoopHeader.forClause init? (some initSemicolon) cond? (some condSemicolon) post?) :=
    fun initSemicolon cond? => moves_expectWrittenSemicolon.bind (hpost initSemicolon cond?)
  refine moves_expectWrittenSemicolon.bind fun initSemicolon =>
    local_nextIsWrittenSemicolon.bind fun _ => .ite ?_ ?_
  · exact local_pure.bind (hcond initSemicolon)
  · exact moving.expr.map.bind (hcond initSemicolon)

theorem local_forHeaderFrom (stmt : Stmt) : (forHeaderFrom rules stmt).Local :=
  local_nextIsWrittenSemicolon.bind fun _ =>
    .ite (local_forClauses moving _) ((local_asCondition stmt).bind fun _ => local_pure)

theorem local_rangeClause (left : List Expr) (leftCommas : List Offset) (opPlace : Offset)
    (op : Operator) : (rangeClause rules left leftCommas opPlace op).Local :=
  (moves_expectKeyword .rangeKw).bind fun _ => moving.expr.bind fun _ => local_pure

theorem local_exprHeader : (exprHeader rules).Local := by
  refine (moves_exprList moving).bind fun (left, leftCommas) => local_peekOp?.bind fun op? => ?_
  cases op? with
  | none => exact (local_exprStmt left).bind (local_forHeaderFrom moving)
  | some op =>
    refine .ite (moves_takePlace.bind fun place => ?_) ?_
    · exact (local_nextIsKeyword .rangeKw).bind fun _ =>
        .ite (local_rangeClause moving left leftCommas place op)
          ((moves_assignment moving _ _ _ _).local.bind (local_forHeaderFrom moving))
    · exact (local_simpleRest moving _ _ _).bind (local_forHeaderFrom moving)

theorem local_loopHeader : (loopHeader rules).Local :=
  (local_nextIsOp .lbrace).bind fun _ => .ite local_pure <|
    local_nextIsWrittenSemicolon.bind fun _ => .ite (local_forClauses moving none) <|
      (local_nextIsKeyword .rangeKw).bind fun _ =>
        .ite (moves_takePlace.bind fun _ => moving.expr.bind fun _ => local_pure)
          (local_exprHeader moving)

theorem moves_forStmt : (forStmt rules).Moves :=
  (moves_expectKeyword .forKw).bind fun _ => (local_loopHeader moving).withLiterals.bind fun _ =>
    moving.block.bind fun _ => local_pure

/-! ## Switches and selections -/

omit moving in
theorem moves_clauseBlock {clause : Parser Stmt} (hclause : clause.Moves) :
    (clauseBlock clause).Moves := by
  refine (moves_expectOp .lbrace).bind fun _ => Local.bind (local_many ?_ hclause) fun _ =>
    (moves_expectOp .rbrace).bind fun _ => local_pure
  exact (local_nextIsKeyword .caseKw).bind fun _ => (local_nextIsKeyword .defaultKw).bind fun _ =>
    local_pure

theorem moves_caseClause : (caseClause rules).Moves := by
  refine (local_nextIsKeyword .defaultKw).bind fun _ => .ite ?_ ?_
  · exact moves_takePlace.bind fun _ => (moves_expectOp .colon).bind fun _ =>
      moving.stmts.bind fun _ => local_pure
  · exact moves_takePlace.bind fun _ => (moves_exprList moving).bind fun _ =>
      (moves_expectOp .colon).bind fun _ => moving.stmts.bind fun _ => local_pure

theorem moves_commClause : (commClause rules).Moves := by
  refine (local_nextIsKeyword .defaultKw).bind fun _ => .ite ?_ ?_
  · exact moves_takePlace.bind fun _ => (moves_expectOp .colon).bind fun _ =>
      moving.stmts.bind fun _ => local_pure
  · exact moves_takePlace.bind fun _ => (moves_simpleStmt moving false).bind fun _ =>
      (moves_expectOp .colon).bind fun _ => moving.stmts.bind fun _ => local_pure

theorem local_switchHeader : (switchHeader rules).Local := by
  refine (local_nextIsOp .lbrace).bind fun _ => .ite local_pure ?_
  refine (moves_simpleStmt moving false).bind fun stmt => local_nextIsWrittenSemicolon.bind fun _ => ?_
  refine .ite (moves_takePlace.bind fun _ => (local_nextIsOp .lbrace).bind fun _ => ?_) local_pure
  refine .ite (local_pure.bind fun _ => local_pure) ?_
  exact (moves_simpleStmt moving false).map.bind fun _ => local_pure

theorem moves_switchStmt : (switchStmt rules).Moves := by
  refine (moves_expectKeyword .switchKw).bind fun _ =>
    (local_switchHeader moving).withLiterals.bind fun (init?, semicolon?, tag?) =>
      (moves_clauseBlock (moves_caseClause moving)).bind fun _ => ?_
  cases tag? with
  | none => exact local_pure
  | some tag => exact .ite local_pure ((local_asCondition tag).bind fun _ => local_pure)

theorem moves_selectStmt : (selectStmt rules).Moves :=
  (moves_expectKeyword .selectKw).bind fun _ =>
    (moves_clauseBlock (moves_commClause moving)).bind fun _ => local_pure

/-! ## All statements -/

theorem moves_callOperand (keyword : Keyword) : (callOperand rules keyword).Moves := by
  refine moving.expr.bind fun x => ?_
  split
  · exact local_pure
  · exact localIf_failAt

theorem moves_returnStmt : (returnStmt rules).Moves :=
  moves_takePlace.bind fun _ => local_peekKind?.bind fun _ =>
    .ite local_pure ((moves_exprList moving).bind fun _ => local_pure)

omit moving in
theorem moves_branch (keyword : Keyword) : (branch keyword).Moves :=
  moves_takePlace.bind fun _ => local_nextIsIdent.bind fun _ =>
    .ite (moves_expectIdent.map.bind fun _ => local_pure) (local_pure.bind fun _ => local_pure)

theorem moves_keywordStmt (keyword : Keyword) : (keywordStmt rules keyword).Moves := by
  unfold keywordStmt
  split
  · exact (moves_genDecl moving .varKw).bind fun _ => local_pure
  · exact (moves_genDecl moving .constKw).bind fun _ => local_pure
  · exact (moves_genDecl moving .typeKw).bind fun _ => local_pure
  · exact moves_returnStmt moving
  · exact moves_branch .breakKw
  · exact moves_branch .continueKw
  · exact moves_branch .gotoKw
  · exact moves_takePlace.bind fun _ => local_pure
  · exact moving.ifStmt
  · exact moves_forStmt moving
  · exact moves_switchStmt moving
  · exact moves_selectStmt moving
  · exact moves_takePlace.bind fun _ => (moves_callOperand moving .goKw).bind fun _ => local_pure
  · exact moves_takePlace.bind fun _ => (moves_callOperand moving .deferKw).bind fun _ => local_pure
  · exact moves_simpleStmt moving true

theorem moves_stmt : (stmt rules).Moves := by
  refine local_peekKind?.bind fun kind? => ?_
  split
  · exact moves_keywordStmt moving _
  · exact moving.block.bind fun _ => local_pure
  · exact moves_takePlace.bind fun _ => local_pure
  · exact moves_simpleStmt moving true

theorem moves_stmtLine : (stmtLine rules).Moves :=
  (moves_stmt moving).bind fun _ => .ite local_pure <|
    (local_endOfLine .rbrace).bind fun _ => local_pure

theorem local_stmts : (stmts rules).Local :=
  local_many (local_peekKind?.bind fun _ => local_pure) (moves_stmtLine moving)

theorem moves_block : (block rules).Moves :=
  (moves_expectOp .lbrace).bind fun _ => (local_stmts moving).withLiterals.bind fun _ =>
    (moves_expectOp .rbrace).bind fun _ => local_pure

/-! ## Files -/

theorem moves_funcDecl : (funcDecl rules).Moves := by
  have hrest : ∀ func receiver?, Local (do
      let name ← expectIdent
      if ← nextIsOp .lbrack then failHere (.unsupported .typeParameters)
      else
        let type ← signature rules none
        let body? ← if ← nextIsOp .lbrace then some <$> rules.block else pure none
        return FuncDecl.mk func receiver? name type body?) := by
    intro func receiver?
    refine moves_expectIdent.bind fun _ => (local_nextIsOp .lbrack).bind fun _ => ?_
    refine .ite localIf_failHere ((moves_signature moving none).bind fun _ => ?_)
    refine (local_nextIsOp .lbrace).bind fun _ => .ite ?_ (local_pure.bind fun _ => local_pure)
    exact moving.block.map.bind fun _ => local_pure
  refine (moves_expectKeyword .funcKw).bind fun func => (local_nextIsOp .lparen).bind fun _ => ?_
  refine .ite ?_ (local_pure.bind (hrest func))
  exact (moves_parameters moving).map.bind (hrest func)

theorem moves_decl : (decl rules).Moves := by
  refine local_peekKeyword?.bind fun keyword? => ?_
  split
  · exact (moves_funcDecl moving).bind fun _ => local_pure
  · exact (moves_genDecl moving .importKw).bind fun _ => local_pure
  · exact (moves_genDecl moving .varKw).bind fun _ => local_pure
  · exact (moves_genDecl moving .constKw).bind fun _ => local_pure
  · exact (moves_genDecl moving .typeKw).bind fun _ => local_pure
  · exact localIf_unexpected

theorem moves_declLine : (declLine rules).Moves :=
  (moves_decl moving).bind fun _ => local_endOfDecl.bind fun _ => local_pure

end Grammar

/-! ## All levels -/

/-- The rules of every level are local. -/
theorem moving_level (depth : Nat) : (Nested.level depth).Moving := by
  induction depth with
  | zero =>
    exact {
      type := Parser.localIf_failHere
      expr := Parser.localIf_failHere
      operand := Parser.localIf_failHere
      literal := fun _ => Parser.localIf_failHere
      block := Parser.localIf_failHere
      ifStmt := Parser.localIf_failHere
      stmt := Parser.localIf_failHere
      stmts := Parser.localIf_failHere }
  | succ depth moving =>
    exact {
      type := Grammar.moves_type moving
      expr := Grammar.moves_expr moving
      operand := Grammar.moves_unary moving
      literal := Grammar.moves_literal moving
      block := Grammar.moves_block moving
      ifStmt := Grammar.moves_ifStmt moving
      stmt := Grammar.moves_stmt moving
      stmts := Grammar.local_stmts moving }

end GoTrace
