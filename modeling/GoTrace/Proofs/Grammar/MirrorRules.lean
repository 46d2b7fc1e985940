import GoTrace.Proofs.Grammar.Mirrors

/-!
# The rules of the grammar do not see places

Each rule mirrors itself, and a rule that is given a tree mirrors the rule that is given the bare
tree. The proofs follow the rules. A rule that asks what a tree is, such as the one that groups
parameters or the one that finds the guard of a type switch, asks for its constructors, which the
bare tree has too.
-/

namespace GoTrace

open GoTrace.Parser (Mirrors)

/-- The rules that go one level deeper mirror themselves. -/
structure Nested.Mirroring (rules : Nested) : Prop where
  type : Mirrors rules.type rules.type
  expr : Mirrors rules.expr rules.expr
  operand : Mirrors rules.operand rules.operand
  literal : ∀ type?, Mirrors (rules.literal type?) (rules.literal (bare type?))
  block : Mirrors rules.block rules.block
  ifStmt : Mirrors rules.ifStmt rules.ifStmt
  stmt : Mirrors rules.stmt rules.stmt
  stmts : Mirrors rules.stmts rules.stmts

/-! ## Parameters -/

instance : Bare ParamEntry := ⟨fun entry => ⟨bare entry.name?, bare entry.type, bare entry.comma?⟩⟩

@[simp] theorem bare_paramEntry (name? : Option Ident) (type : Expr) (comma? : Option Offset) :
    bare (ParamEntry.mk name? type comma?) = ⟨bare name?, bare type, bare comma?⟩ := rfl

/-- Parameters with names are grouped alike. -/
theorem ParamEntry.alike_groupNamed (entries : List ParamEntry) (names : List Ident)
    (commas : List Offset) : Alike (groupNamed entries names commas)
      (groupNamed (Bare.bare entries) (Bare.bare names) (Bare.bare commas)) := by
  induction entries generalizing names commas with
  | nil =>
    simp only [bare_nil, groupNamed, getLast?_bare]
    cases names.getLast? with
    | none => exact .ok ([], [])
    | some name => exact .error rfl
  | cons entry entries ih =>
    obtain ⟨name?, type, comma?⟩ := entry
    cases name? with
    | some name =>
      refine (ih [] []).bind fun (fields, separators) => ?_
      have hok := Alike.ok (Field.mk (names ++ [name]) commas type none :: fields,
        comma?.toList ++ separators)
      change Alike (.ok _) (.ok _)
      simpa using hok
    | none =>
      cases type with
      | ident name => simpa [groupNamed] using ih (names ++ [name]) (commas ++ comma?.toList)
      | _ => exact .error rfl

/-- The entries of a parameter list are grouped alike. -/
theorem ParamEntry.alike_group (entries : List ParamEntry) :
    Alike (group entries) (group (Bare.bare entries)) := by
  have hall : (Bare.bare entries).all (·.name?.isNone) = entries.all (·.name?.isNone) := by
    induction entries with
    | nil => rfl
    | cons entry entries ih => rw [bare_cons, List.all_cons, List.all_cons, ih]; simp [Bare.bare]
  rw [group, group, hall]
  split
  · have hok := Alike.ok (entries.map unnamed, entries.filterMap (·.comma?))
    rwa [bare_pair, ← map_bare (f := unnamed) fun _ => rfl,
      ← filterMap_bare (f := ParamEntry.comma?) fun _ => rfl] at hok
  · exact alike_groupNamed entries [] []

namespace Grammar

open GoTrace.Parser

variable {rules : Nested} (m : rules.Mirroring)

/-! ## Types -/

theorem mirrors_typeName : Mirrors typeName typeName := by
  refine mirrors_expectIdent.bind fun name => (mirrors_takeOp? .period).bind fun period? => ?_
  cases period? with
  | none => exact mirrors_pure (by simp)
  | some period => exact mirrors_expectIdent.bind fun _ => mirrors_pure (by simp)

include m

theorem mirrors_arrayLength? : Mirrors (arrayLength? rules) (arrayLength? rules) := by
  refine (mirrors_nextIsOp .rbrack).bind fun _ => .ite (mirrors_pure rfl) ?_
  refine (mirrors_takeOp? .ellipsis).bind fun dots? => ?_
  cases dots? with
  | none => exact m.expr.withLiterals.bind fun _ => mirrors_pure rfl
  | some dots => exact mirrors_pure (by simp)

theorem mirrors_arrayType : Mirrors (arrayType rules) (arrayType rules) :=
  (mirrors_expectOp .lbrack).bind fun _ => (mirrors_arrayLength? m).bind fun _ =>
    (mirrors_expectOp .rbrack).bind fun _ => m.type.bind fun _ => mirrors_pure (by simp)

theorem mirrors_mapType : Mirrors (mapType rules) (mapType rules) :=
  (mirrors_expectKeyword .mapKw).bind fun _ => (mirrors_expectOp .lbrack).bind fun _ =>
    m.type.bind fun _ => (mirrors_expectOp .rbrack).bind fun _ =>
      m.type.bind fun _ => mirrors_pure (by simp)

theorem mirrors_chanType : Mirrors (chanType rules) (chanType rules) := by
  refine (mirrors_takeOp? .arrow).bind fun recv? => ?_
  cases recv? with
  | some arrow =>
    exact (mirrors_expectKeyword .chanKw).bind fun _ => m.type.bind fun _ => mirrors_pure (by simp)
  | none =>
    refine (mirrors_expectKeyword .chanKw).bind fun _ =>
      (mirrors_takeOp? .arrow).bind fun send? => ?_
    cases send? with
    | some arrow => exact m.type.bind fun _ => mirrors_pure (by simp)
    | none => exact m.type.bind fun _ => mirrors_pure (by simp)

theorem mirrors_parenType : Mirrors (parenType rules) (parenType rules) :=
  mirrors_takePlace.bind fun _ => m.type.bind fun _ =>
    (mirrors_expectOp .rparen).bind fun _ => mirrors_pure (by simp)

theorem mirrors_pointerType : Mirrors (pointerType rules) (pointerType rules) :=
  mirrors_takePlace.bind fun _ => m.type.bind fun _ => mirrors_pure (by simp)

omit m in
theorem mirrors_bracedFields {field : Parser Field} (hfield : Mirrors field field) :
    Mirrors (bracedFields field) (bracedFields field) := by
  refine (mirrors_expectOp .lbrace).bind fun _ =>
    Mirrors.bind (mirrors_many (mirrors_nextIsOp .rbrace) ?_) fun _ =>
      (mirrors_expectOp .rbrace).bind fun _ => mirrors_pure (by simp)
  exact hfield.bind fun _ => (mirrors_endOfLine .rbrace).bind fun _ => mirrors_pure rfl

omit m in
theorem mirrors_tag? : Mirrors tag? tag? :=
  mirrors_nextIsString.bind fun _ =>
    .ite (mirrors_expectLiteral.bind fun _ => mirrors_pure rfl) (mirrors_pure rfl)

theorem mirrors_structField : Mirrors (structField rules) (structField rules) := by
  have hrest : ∀ (names : List Ident) (commas : List Offset), Mirrors
      (do let type ← rules.type
          return Field.mk names commas type (← tag?))
      (do let type ← rules.type
          return Field.mk (bare names) (bare commas) type (← tag?)) :=
    fun names commas => m.type.bind fun _ => mirrors_tag?.bind fun _ => mirrors_pure (by simp)
  refine mirrors_nextIsIdent.bind fun _ => mirrors_peekSecondKind? fun _ => .ite ?_ ?_
  · exact (mirrors_commaSeparated mirrors_expectIdent).bind fun (names, commas) =>
      hrest names commas
  · exact (mirrors_pure rfl).bind fun (names, commas) => hrest names commas

theorem mirrors_structType : Mirrors (structType rules) (structType rules) :=
  (mirrors_expectKeyword .structKw).bind fun _ =>
    (mirrors_bracedFields (mirrors_structField m)).bind fun _ => mirrors_pure (by simp)

theorem mirrors_parameterType : Mirrors (parameterType rules) (parameterType rules) := by
  refine (mirrors_takeOp? .ellipsis).bind fun dots? => ?_
  cases dots? with
  | none => exact m.type
  | some dots => exact m.type.bind fun _ => mirrors_pure (by simp)

theorem mirrors_parameter : Mirrors (parameter rules) (parameter rules) := by
  have hrest : ∀ name? : Option Ident, Mirrors
      (do let type ← parameterType rules
          let comma? ← takeOp? .comma
          return (ParamEntry.mk name? type comma?, comma?.isNone))
      (do let type ← parameterType rules
          let comma? ← takeOp? .comma
          return (ParamEntry.mk (bare name?) type comma?, comma?.isNone)) :=
    fun name? => (mirrors_parameterType m).bind fun _ =>
      (mirrors_takeOp? .comma).bind fun _ => mirrors_pure (by simp)
  refine mirrors_nextIsIdent.bind fun _ => mirrors_peekSecondKind? fun _ => .ite ?_ ?_
  · exact mirrors_expectIdent.some.bind hrest
  · exact (mirrors_pure rfl).bind hrest

theorem mirrors_parameters : Mirrors (parameters rules) (parameters rules) :=
  (mirrors_expectOp .lparen).bind fun _ =>
    (mirrors_collect (mirrors_nextIsOp .rparen) (mirrors_parameter m)).bind fun entries =>
      (mirrors_expectOp .rparen).bind fun _ =>
        (mirrors_fromExcept (ParamEntry.alike_group entries)).bind fun _ =>
          mirrors_pure (by simp)

theorem mirrors_results? : Mirrors (results? rules) (results? rules) :=
  (mirrors_nextIsOp .lparen).bind fun _ =>
    .ite ((mirrors_parameters m).bind fun _ => mirrors_pure rfl) <|
      mirrors_peekKind? fun _ =>
        .ite (m.type.bind fun _ => mirrors_pure (by simp)) (mirrors_pure rfl)

theorem mirrors_signature (func? : Option Offset) :
    Mirrors (signature rules func?) (signature rules (bare func?)) :=
  (mirrors_parameters m).bind fun _ => (mirrors_results? m).bind fun _ => mirrors_pure (by simp)

theorem mirrors_interfaceElem : Mirrors (interfaceElem rules) (interfaceElem rules) := by
  refine mirrors_nextIsIdent.bind fun _ => mirrors_peekSecondKind? fun _ => .ite ?_ ?_
  · exact mirrors_expectIdent.bind fun _ => (mirrors_signature m none).bind fun _ =>
      mirrors_pure (by simp)
  · exact m.type.bind fun _ => mirrors_pure (by simp)

theorem mirrors_interfaceType : Mirrors (interfaceType rules) (interfaceType rules) :=
  (mirrors_expectKeyword .interfaceKw).bind fun _ =>
    (mirrors_bracedFields (mirrors_interfaceElem m)).bind fun _ => mirrors_pure (by simp)

theorem mirrors_funcType : Mirrors (funcType rules) (funcType rules) :=
  mirrors_takePlace.bind fun _ => (mirrors_signature m _).bind fun _ => mirrors_pure (by simp)

theorem mirrors_type : Mirrors (type rules) (type rules) := by
  refine mirrors_peekKind? fun kind? => ?_
  split
  · exact mirrors_typeName
  · exact mirrors_pointerType m
  · exact mirrors_arrayType m
  · exact mirrors_chanType m
  · exact mirrors_parenType m
  · exact mirrors_mapType m
  · exact mirrors_structType m
  · exact mirrors_funcType m
  · exact mirrors_chanType m
  · exact mirrors_interfaceType m
  · exact mirrors_unexpected

/-! ## Expressions -/

theorem mirrors_exprList : Mirrors (exprList rules) (exprList rules) :=
  mirrors_commaSeparated m.expr

theorem mirrors_elementPart : Mirrors (elementPart rules) (elementPart rules) :=
  (mirrors_nextIsOp .lbrace).bind fun _ => .ite (m.literal none) m.expr

theorem mirrors_element : Mirrors (element rules) (element rules) := by
  refine (mirrors_elementPart m).bind fun key => (mirrors_takeOp? .colon).bind fun colon? => ?_
  cases colon? with
  | none => exact mirrors_pure rfl
  | some colon => exact (mirrors_elementPart m).bind fun _ => mirrors_pure (by simp)

theorem mirrors_elementAndComma : Mirrors (elementAndComma rules) (elementAndComma rules) :=
  (mirrors_element m).bind fun _ => (mirrors_takeOp? .comma).bind fun _ => mirrors_pure (by simp)

theorem mirrors_literal (type? : Option Expr) :
    Mirrors (literal rules type?) (literal rules (bare type?)) :=
  (mirrors_expectOp .lbrace).bind fun _ => (mirrors_collect (mirrors_nextIsOp .rbrace)
    (mirrors_elementAndComma m)).withLiterals.bind fun _ => (mirrors_expectOp .rbrace).bind fun _ =>
      mirrors_pure (by simp [map_bare, filterMap_bare])

omit m in
/-- Whether a brace opens a literal does not depend on places. -/
theorem opensLiteral_bare (x : Expr) : opensLiteral x.bare = opensLiteral x := by
  cases x <;> rfl

omit m in
theorem mirrors_opensLiteral (x : Expr) : Mirrors (opensLiteral x) (opensLiteral x) := by
  have hread : Mirrors (return (← read).literals) (return (← read).literals) :=
    fun ctx st => .ok (ctx.literals, st)
  cases x with
  | ident | selector | index => exact hread
  | _ => exact mirrors_pure rfl

instance : Bare Argument := ⟨fun arg => ⟨bare arg.value, bare arg.dots?, bare arg.comma?⟩⟩

theorem mirrors_argument : Mirrors (argument rules) (argument rules) :=
  m.expr.bind fun _ => (mirrors_takeOp? .ellipsis).bind fun _ =>
    (mirrors_takeOp? .comma).bind fun _ => mirrors_pure (by simp; rfl)

theorem mirrors_call (fn : Expr) : Mirrors (call rules fn) (call rules fn.bare) := by
  refine (mirrors_expectOp .lparen).bind fun _ => (mirrors_collect (mirrors_nextIsOp .rparen)
    (mirrors_argument m)).withLiterals.bind fun args => (mirrors_expectOp .rparen).bind fun _ =>
      mirrors_pure ?_
  simp [map_bare (f := Argument.value) fun _ => rfl,
    filterMap_bare (f := Argument.comma?) fun _ => rfl,
    filterMap_bare (f := Argument.dots?) fun _ => rfl]

theorem mirrors_bound? (ends : List Operator) :
    Mirrors (bound? rules ends) (bound? rules ends) := by
  refine mirrors_peekOp? fun op? => ?_
  cases op? with
  | none => exact m.expr.bind fun _ => mirrors_pure rfl
  | some op => exact .ite (mirrors_pure rfl) (m.expr.bind fun _ => mirrors_pure rfl)

theorem mirrors_sliceRest (base : Expr) (lbrack : Offset) (low? : Option Expr) :
    Mirrors (sliceRest rules base lbrack low?)
      (sliceRest rules base.bare (bare lbrack) (bare low?)) := by
  refine (mirrors_expectOp .colon).bind fun colon => (mirrors_bound? m _).bind fun high? => ?_
  refine (mirrors_nextIsOp .colon).bind fun _ => .ite ?_ ?_
  · cases high? with
    | none => exact mirrors_failHere
    | some high =>
      exact mirrors_takePlace.bind fun _ => m.expr.bind fun _ =>
        (mirrors_expectOp .rbrack).bind fun _ => mirrors_pure (by simp)
  · exact (mirrors_expectOp .rbrack).bind fun _ => mirrors_pure (by simp)

theorem mirrors_indexOrSlice (base : Expr) :
    Mirrors (indexOrSlice rules base) (indexOrSlice rules base.bare) := by
  refine (mirrors_expectOp .lbrack).bind fun lbrack => (mirrors_bound? m _).bind fun first? => ?_
  cases first? with
  | none => exact mirrors_sliceRest m base lbrack none
  | some first =>
    refine (mirrors_nextIsOp .colon).bind fun _ => .ite ?_ ?_
    · exact mirrors_sliceRest m base lbrack (some first)
    · exact (mirrors_expectOp .rbrack).bind fun _ => mirrors_pure (by simp)

theorem mirrors_typeAssert (base : Expr) (period : Offset) :
    Mirrors (typeAssert rules base period) (typeAssert rules base.bare (bare period)) := by
  refine (mirrors_expectOp .lparen).bind fun _ => (mirrors_nextIsKeyword .typeKw).bind fun _ => ?_
  refine .ite ?_ ?_
  · exact mirrors_takePlace.bind fun _ => (mirrors_expectOp .rparen).bind fun _ =>
      mirrors_pure (by simp)
  · exact m.type.bind fun _ => (mirrors_expectOp .rparen).bind fun _ => mirrors_pure (by simp)

theorem mirrors_selection (base : Expr) :
    Mirrors (selection rules base) (selection rules base.bare) :=
  mirrors_takePlace.bind fun _ => (mirrors_nextIsOp .lparen).bind fun _ =>
    .ite (mirrors_typeAssert m base _) (mirrors_expectIdent.bind fun _ => mirrors_pure (by simp))

theorem mirrors_funcLit : Mirrors (funcLit rules) (funcLit rules) :=
  (mirrors_expectKeyword .funcKw).bind fun _ => (mirrors_signature m _).bind fun _ =>
    (mirrors_nextIsOp .lbrace).bind fun _ =>
      .ite (m.block.bind fun _ => mirrors_pure (by simp)) (mirrors_pure (by simp))

theorem mirrors_parenExpr : Mirrors (parenExpr rules) (parenExpr rules) :=
  mirrors_takePlace.bind fun _ => m.expr.withLiterals.bind fun _ =>
    (mirrors_expectOp .rparen).bind fun _ => mirrors_pure (by simp)

theorem mirrors_operand : Mirrors (operand rules) (operand rules) := by
  refine mirrors_peekKind? fun kind? => ?_
  split
  · exact mirrors_expectIdent.bind fun _ => mirrors_pure (by simp)
  · exact mirrors_expectLiteral.bind fun _ => mirrors_pure (by simp)
  · exact mirrors_parenExpr m
  · exact mirrors_arrayType m
  · exact mirrors_mapType m
  · exact mirrors_structType m
  · exact mirrors_funcLit m
  · exact mirrors_chanType m
  · exact mirrors_interfaceType m
  · exact mirrors_unexpected

theorem mirrors_primaryStep (x : Expr) :
    Mirrors (primaryStep rules x) (primaryStep rules (bare x)) := by
  refine mirrors_peekOp? fun op? => ?_
  split
  · exact (mirrors_selection m x).bind fun _ => mirrors_pure rfl
  · exact (mirrors_indexOrSlice m x).withLiterals.bind fun _ => mirrors_pure rfl
  · exact (mirrors_call m x).bind fun _ => mirrors_pure (by simp)
  · rw [bare_expr, opensLiteral_bare]
    exact (mirrors_opensLiteral x).bind fun _ =>
      .ite ((m.literal (some x)).bind fun _ => mirrors_pure rfl) (mirrors_pure rfl)
  · exact mirrors_pure rfl

theorem mirrors_primary : Mirrors (primary rules) (primary rules) :=
  (mirrors_operand m).bind (mirrors_iterate (mirrors_primaryStep m))

theorem mirrors_unaryOp (op : Operator) : Mirrors (unaryOp rules op) (unaryOp rules op) :=
  mirrors_takePlace.bind fun _ => m.operand.bind fun _ => mirrors_pure (by simp)

theorem mirrors_deref : Mirrors (deref rules) (deref rules) :=
  mirrors_takePlace.bind fun _ => m.operand.bind fun _ => mirrors_pure (by simp)

theorem mirrors_unary : Mirrors (unary rules) (unary rules) := by
  refine mirrors_peekOp? fun op? => ?_
  split
  · exact mirrors_peekSecondKind? fun _ => .ite (mirrors_chanType m) (mirrors_unaryOp m .arrow)
  · exact mirrors_unaryOp m .add
  · exact mirrors_unaryOp m .sub
  · exact mirrors_unaryOp m .not
  · exact mirrors_unaryOp m .xor
  · exact mirrors_unaryOp m .and
  · exact mirrors_deref m
  · exact mirrors_primary m

omit m in
theorem mirrors_binaryStep {operand : Parser Expr} (hoperand : Mirrors operand operand)
    (precedence : Nat) (x : Expr) :
    Mirrors (binaryStep precedence operand x) (binaryStep precedence operand (bare x)) := by
  refine mirrors_peekOp? fun op? => ?_
  cases op? with
  | none => exact mirrors_pure rfl
  | some op =>
    refine .ite ?_ (mirrors_pure rfl)
    exact mirrors_takePlace.bind fun _ => hoperand.bind fun _ => mirrors_pure (by simp)

theorem mirrors_binary (levels : Nat) : Mirrors (binary rules levels) (binary rules levels) := by
  induction levels with
  | zero => exact m.operand
  | succ levels ih => exact ih.bind (mirrors_iterate (mirrors_binaryStep ih _))

theorem mirrors_expr : Mirrors (expr rules) (expr rules) := mirrors_binary m 5

/-! ## Declarations -/

omit m in
theorem mirrors_importName? : Mirrors importName? importName? := by
  refine mirrors_nextIsIdent.bind fun _ =>
    .ite (mirrors_expectIdent.bind fun _ => mirrors_pure rfl) ?_
  refine (mirrors_takeOp? .period).bind fun period? => ?_
  cases period? with
  | none => exact mirrors_pure rfl
  | some period => exact mirrors_pure rfl

omit m in
theorem mirrors_importSpec : Mirrors importSpec importSpec :=
  mirrors_importName?.bind fun _ => mirrors_nextIsString.bind fun _ =>
    .ite (mirrors_expectLiteral.bind fun _ => mirrors_pure (by simp)) mirrors_unexpected

theorem mirrors_typeSpec : Mirrors (typeSpec rules) (typeSpec rules) :=
  mirrors_expectIdent.bind fun _ => (mirrors_takeOp? .assign).bind fun _ =>
    m.type.bind fun _ => mirrors_pure (by simp)

private theorem mirrors_assignedValues (names : List Ident) (nameCommas : List Offset)
    (type? : Option Expr) : Mirrors
      (do match ← takeOp? .assign with
          | some assign =>
            let (values, valueCommas) ← exprList rules
            return Spec.values names nameCommas type? (some assign) values valueCommas
          | none => return Spec.values names nameCommas type? none [] [])
      (do match ← takeOp? .assign with
          | some assign =>
            let (values, valueCommas) ← exprList rules
            return Spec.values (bare names) (bare nameCommas) (bare type?) (some assign) values
              valueCommas
          | none => return Spec.values (bare names) (bare nameCommas) (bare type?) none [] []) := by
  refine (mirrors_takeOp? .assign).bind fun assign? => ?_
  cases assign? with
  | none => exact mirrors_pure (by simp)
  | some assign => exact (mirrors_exprList m).bind fun _ => mirrors_pure (by simp)

theorem mirrors_valueSpec : Mirrors (valueSpec rules) (valueSpec rules) := by
  refine (mirrors_commaSeparated mirrors_expectIdent).bind fun (names, nameCommas) => ?_
  refine mirrors_peekKind? fun _ => .ite ?_ ?_
  · exact (mirrors_pure rfl).bind (mirrors_assignedValues m names nameCommas)
  · exact m.type.some.bind (mirrors_assignedValues m names nameCommas)

theorem mirrors_spec (keyword : Keyword) : Mirrors (spec rules keyword) (spec rules keyword) := by
  unfold spec
  split
  · exact mirrors_importSpec
  · exact mirrors_typeSpec m
  · exact mirrors_valueSpec m

theorem mirrors_genDecl (keyword : Keyword) :
    Mirrors (genDecl rules keyword) (genDecl rules keyword) := by
  refine (mirrors_expectKeyword keyword).bind fun _ =>
    (mirrors_takeOp? .lparen).bind fun lparen? => ?_
  cases lparen? with
  | none => exact (mirrors_spec m keyword).bind fun _ => mirrors_pure (by simp)
  | some lparen =>
    refine Mirrors.bind (mirrors_many (mirrors_nextIsOp .rparen) ?_) fun _ =>
      (mirrors_expectOp .rparen).bind fun _ => mirrors_pure (by simp)
    exact (mirrors_spec m keyword).bind fun _ => (mirrors_endOfLine .rparen).bind fun _ =>
      mirrors_pure rfl

/-! ## Simple statements -/

omit m in
theorem mirrors_single (exprs : List Expr) (expected : Expectation) :
    Mirrors (single exprs expected) (single (bare exprs) expected) := by
  rcases exprs with _ | ⟨x, _ | ⟨y, exprs⟩⟩
  · exact mirrors_unexpected
  · exact mirrors_pure rfl
  · exact mirrors_unexpected

theorem mirrors_labeledBody : Mirrors (labeledBody rules) (labeledBody rules) :=
  (mirrors_nextIsOp .rbrace).bind fun _ =>
    .ite (mirrors_peekSpan.bind fun _ => mirrors_pure rfl) m.stmt

theorem mirrors_assignment (left : List Expr) (leftCommas : List Offset) (place : Offset)
    (op : Operator) : Mirrors (assignment rules left leftCommas place op)
      (assignment rules (bare left) (bare leftCommas) (bare place) op) :=
  (mirrors_exprList m).bind fun _ => mirrors_pure (by simp)

omit m in
theorem mirrors_exprStmt (left : List Expr) : Mirrors (exprStmt left) (exprStmt (bare left)) :=
  (mirrors_single left _).bind fun _ => mirrors_pure (by simp)

omit m in
theorem mirrors_incDec (left : List Expr) (op : Operator) :
    Mirrors (incDec left op) (incDec (bare left) op) :=
  (mirrors_single left _).bind fun _ => mirrors_takePlace.bind fun _ => mirrors_pure (by simp)

theorem mirrors_send (left : List Expr) : Mirrors (send rules left) (send rules (bare left)) :=
  (mirrors_single left _).bind fun _ => mirrors_takePlace.bind fun _ =>
    m.expr.bind fun _ => mirrors_pure (by simp)

theorem mirrors_labeled (labels : Bool) (left : List Expr) :
    Mirrors (labeled rules labels left) (labeled rules labels (bare left)) := by
  -- the bare list is a lone name if and only if the list is one
  rcases left with _ | ⟨x, _ | ⟨y, left⟩⟩
  · cases labels <;> exact mirrors_exprStmt []
  · cases labels with
    | false => exact mirrors_exprStmt [x]
    | true =>
      cases x with
      | ident label =>
        exact mirrors_takePlace.bind fun _ => (mirrors_labeledBody m).bind fun _ =>
          mirrors_pure (by simp)
      | _ => exact mirrors_exprStmt [_]
  · cases labels with
    | false => exact mirrors_exprStmt (x :: y :: left)
    | true => cases x <;> exact mirrors_exprStmt (_ :: y :: left)

theorem mirrors_simpleRest (labels : Bool) (left : List Expr) (leftCommas : List Offset) :
    Mirrors (simpleRest rules labels left leftCommas)
      (simpleRest rules labels (bare left) (bare leftCommas)) := by
  refine mirrors_peekOp? fun op? => ?_
  cases op? with
  | none => exact mirrors_exprStmt left
  | some op =>
    refine .ite (mirrors_takePlace.bind fun _ => mirrors_assignment m left leftCommas _ op) ?_
    split
    · exact mirrors_incDec left .inc
    · exact mirrors_incDec left .dec
    · exact mirrors_labeled m labels left
    · exact mirrors_send m left
    · exact mirrors_exprStmt left

theorem mirrors_simpleStmt (labels : Bool) :
    Mirrors (simpleStmt rules labels) (simpleStmt rules labels) :=
  (mirrors_exprList m).bind fun (left, leftCommas) => mirrors_simpleRest m labels left leftCommas

/-! ## Headers -/

omit m in
theorem mirrors_asCondition (stmt : Stmt) : Mirrors (asCondition stmt) (asCondition stmt.bare) := by
  cases stmt with
  | expr x => exact mirrors_pure rfl
  | _ => exact mirrors_failAt

theorem mirrors_ifHeader : Mirrors (ifHeader rules) (ifHeader rules) := by
  refine (mirrors_simpleStmt m false).bind fun stmt =>
    mirrors_nextIsWrittenSemicolon.bind fun _ => ?_
  refine .ite ?_ ?_
  · exact mirrors_takePlace.bind fun _ => m.expr.bind fun _ => mirrors_pure (by simp)
  · exact (mirrors_asCondition stmt).bind fun _ => mirrors_pure (by simp)

theorem mirrors_elseBranch : Mirrors (elseBranch rules) (elseBranch rules) :=
  (mirrors_nextIsKeyword .ifKw).bind fun _ => .ite m.ifStmt <|
    (mirrors_nextIsOp .lbrace).bind fun _ =>
      .ite (m.block.bind fun _ => mirrors_pure (by simp)) mirrors_unexpected

theorem mirrors_ifStmt : Mirrors (ifStmt rules) (ifStmt rules) := by
  refine (mirrors_expectKeyword .ifKw).bind fun _ => (mirrors_ifHeader m).withLiterals.bind
    fun (init?, semicolon?, cond) => m.block.bind fun _ =>
      (mirrors_nextIsKeyword .elseKw).bind fun _ => .ite ?_ (mirrors_pure (by simp))
  exact mirrors_takePlace.bind fun _ => (mirrors_elseBranch m).bind fun _ => mirrors_pure (by simp)

instance : Bare LoopHeader where
  bare
    | .forClause init? initSemicolon? cond? condSemicolon? post? =>
      .forClause (bare init?) (bare initSemicolon?) (bare cond?) (bare condSemicolon?) (bare post?)
    | .rangeClause key? comma? value? opPlace? op? range operand =>
      .rangeClause (bare key?) (bare comma?) (bare value?) (bare opPlace?) op? (bare range)
        (bare operand)

omit m in
/-- The loop with a bare header and a bare body is the bare loop. -/
theorem toStmt_bare (place : Offset) (body : Block) (header : LoopHeader) :
    (header.toStmt place body).bare = (bare header).toStmt (bare place) body.bare := by
  cases header <;> simp [LoopHeader.toStmt, bare]

theorem mirrors_forClauses (init? : Option Stmt) :
    Mirrors (forClauses rules init?) (forClauses rules (bare init?)) := by
  have hpost : ∀ initSemicolon condSemicolon (cond? : Option Expr), Mirrors
      (do let post? ← if ← nextIsOp .lbrace then pure none else some <$> simpleStmt rules false
          return LoopHeader.forClause init? (some initSemicolon) cond? (some condSemicolon) post?)
      (do let post? ← if ← nextIsOp .lbrace then pure none else some <$> simpleStmt rules false
          return LoopHeader.forClause (bare init?) (some (bare initSemicolon)) (bare cond?)
            (some (bare condSemicolon)) post?) := by
    intro initSemicolon condSemicolon cond?
    refine (mirrors_nextIsOp .lbrace).bind fun _ => .ite ?_ ?_
    · exact (mirrors_pure rfl).bind fun _ => mirrors_pure rfl
    · exact (mirrors_simpleStmt m false).some.bind fun _ => mirrors_pure rfl
  refine mirrors_expectWrittenSemicolon.bind fun _ =>
    mirrors_nextIsWrittenSemicolon.bind fun _ => ?_
  refine .ite ?_ ?_
  · exact (mirrors_pure rfl).bind fun cond? =>
      mirrors_expectWrittenSemicolon.bind fun _ => hpost _ _ cond?
  · exact m.expr.some.bind fun cond? =>
      mirrors_expectWrittenSemicolon.bind fun _ => hpost _ _ cond?

theorem mirrors_forHeaderFrom (stmt : Stmt) :
    Mirrors (forHeaderFrom rules stmt) (forHeaderFrom rules stmt.bare) :=
  mirrors_nextIsWrittenSemicolon.bind fun _ => .ite (mirrors_forClauses m (some stmt)) <|
    (mirrors_asCondition stmt).bind fun _ => mirrors_pure rfl

theorem mirrors_rangeClause (left : List Expr) (leftCommas : List Offset) (opPlace : Offset)
    (op : Operator) : Mirrors (rangeClause rules left leftCommas opPlace op)
      (rangeClause rules (bare left) (bare leftCommas) (bare opPlace) op) := by
  refine (mirrors_expectKeyword .rangeKw).bind fun _ => m.expr.bind fun _ => mirrors_pure ?_
  rw [head?_bare, head?_bare, getElem?_bare]
  rfl

theorem mirrors_exprHeader : Mirrors (exprHeader rules) (exprHeader rules) := by
  refine (mirrors_exprList m).bind fun (left, leftCommas) => mirrors_peekOp? fun op? => ?_
  cases op? with
  | none => exact (mirrors_exprStmt left).bind fun stmt => mirrors_forHeaderFrom m stmt
  | some op =>
    have hallows : allowsRange (bare left) op = allowsRange left op := by
      rw [allowsRange, allowsRange, length_bare]
    refine .ite ?_ ?_
    · refine mirrors_takePlace.bind fun place => (mirrors_nextIsKeyword .rangeKw).bind fun _ => ?_
      rw [hallows]
      refine .ite (mirrors_rangeClause m left leftCommas place op) ?_
      exact (mirrors_assignment m left leftCommas place op).bind fun stmt =>
        mirrors_forHeaderFrom m stmt
    · exact (mirrors_simpleRest m false left leftCommas).bind fun stmt =>
        mirrors_forHeaderFrom m stmt

theorem mirrors_loopHeader : Mirrors (loopHeader rules) (loopHeader rules) := by
  refine (mirrors_nextIsOp .lbrace).bind fun _ => .ite (mirrors_pure rfl) ?_
  refine mirrors_nextIsWrittenSemicolon.bind fun _ => .ite (mirrors_forClauses m none) ?_
  refine (mirrors_nextIsKeyword .rangeKw).bind fun _ => .ite ?_ (mirrors_exprHeader m)
  exact mirrors_takePlace.bind fun _ => m.expr.bind fun _ => mirrors_pure rfl

theorem mirrors_forStmt : Mirrors (forStmt rules) (forStmt rules) :=
  (mirrors_expectKeyword .forKw).bind fun place => (mirrors_loopHeader m).withLiterals.bind
    fun header => m.block.bind fun body => mirrors_pure (toStmt_bare place body header)

/-! ## Switches and selections -/

omit m in
theorem mirrors_clauseBlock {clause : Parser Stmt} (hclause : Mirrors clause clause) :
    Mirrors (clauseBlock clause) (clauseBlock clause) := by
  refine (mirrors_expectOp .lbrace).bind fun _ => Mirrors.bind (mirrors_many ?_ hclause) fun _ =>
    (mirrors_expectOp .rbrace).bind fun _ => mirrors_pure (by simp)
  exact (mirrors_nextIsKeyword .caseKw).bind fun _ =>
    (mirrors_nextIsKeyword .defaultKw).bind fun _ => mirrors_pure rfl

theorem mirrors_caseClause : Mirrors (caseClause rules) (caseClause rules) := by
  refine (mirrors_nextIsKeyword .defaultKw).bind fun _ => .ite ?_ ?_
  · exact mirrors_takePlace.bind fun _ => (mirrors_expectOp .colon).bind fun _ =>
      m.stmts.bind fun _ => mirrors_pure (by simp)
  · exact mirrors_takePlace.bind fun _ => (mirrors_exprList m).bind fun _ =>
      (mirrors_expectOp .colon).bind fun _ => m.stmts.bind fun _ => mirrors_pure (by simp)

theorem mirrors_commClause : Mirrors (commClause rules) (commClause rules) := by
  refine (mirrors_nextIsKeyword .defaultKw).bind fun _ => .ite ?_ ?_
  · exact mirrors_takePlace.bind fun _ => (mirrors_expectOp .colon).bind fun _ =>
      m.stmts.bind fun _ => mirrors_pure (by simp)
  · exact mirrors_takePlace.bind fun _ => (mirrors_simpleStmt m false).bind fun _ =>
      (mirrors_expectOp .colon).bind fun _ => m.stmts.bind fun _ => mirrors_pure (by simp)

theorem mirrors_switchHeader : Mirrors (switchHeader rules) (switchHeader rules) := by
  refine (mirrors_nextIsOp .lbrace).bind fun _ => .ite (mirrors_pure rfl) ?_
  refine (mirrors_simpleStmt m false).bind fun stmt =>
    mirrors_nextIsWrittenSemicolon.bind fun _ => ?_
  refine .ite (mirrors_takePlace.bind fun _ => (mirrors_nextIsOp .lbrace).bind fun _ => ?_)
    (mirrors_pure rfl)
  refine .ite ((mirrors_pure rfl).bind fun _ => mirrors_pure rfl) ?_
  exact (mirrors_simpleStmt m false).some.bind fun _ => mirrors_pure rfl

omit m in
/-- Whether a statement is the guard of a type switch does not depend on places. -/
theorem isTypeSwitchGuard_bare (stmt : Stmt) :
    isTypeSwitchGuard stmt.bare = isTypeSwitchGuard stmt := by
  have hguard : ∀ x : Expr, x.bare.isTypeGuard = x.isTypeGuard := by
    intro x
    cases x with
    | typeAssert base period lparen type? typeKeyword? rparen => cases typeKeyword? <;> rfl
    | _ => rfl
  cases stmt with
  | expr x => exact hguard x
  | assign left leftCommas opPlace op right rightCommas =>
    rcases left with _ | ⟨x, _ | ⟨x', left⟩⟩
    · rfl
    · cases op with
      | define =>
        rcases right with _ | ⟨y, _ | ⟨y', right⟩⟩
        · rfl
        · exact hguard y
        · rfl
      | _ => rfl
    · rfl
  | _ => rfl

theorem mirrors_switchStmt : Mirrors (switchStmt rules) (switchStmt rules) := by
  refine (mirrors_expectKeyword .switchKw).bind fun _ => (mirrors_switchHeader m).withLiterals.bind
    fun (init?, semicolon?, tag?) => (mirrors_clauseBlock (mirrors_caseClause m)).bind fun _ => ?_
  cases tag? with
  | none => exact mirrors_pure (by simp)
  | some tag =>
    simp only [bare_some, bare_stmt, isTypeSwitchGuard_bare]
    exact .ite (mirrors_pure (by simp))
      ((mirrors_asCondition tag).bind fun _ => mirrors_pure (by simp))

theorem mirrors_selectStmt : Mirrors (selectStmt rules) (selectStmt rules) :=
  (mirrors_expectKeyword .selectKw).bind fun _ =>
    (mirrors_clauseBlock (mirrors_commClause m)).bind fun _ => mirrors_pure (by simp)

/-! ## All statements -/

theorem mirrors_callOperand (keyword : Keyword) :
    Mirrors (callOperand rules keyword) (callOperand rules keyword) := by
  refine m.expr.bind fun x => ?_
  cases x with
  | call call => exact mirrors_pure rfl
  | _ => exact mirrors_failAt

theorem mirrors_returnStmt : Mirrors (returnStmt rules) (returnStmt rules) :=
  mirrors_takePlace.bind fun _ => mirrors_peekKind? fun _ =>
    .ite (mirrors_pure (by simp)) ((mirrors_exprList m).bind fun _ => mirrors_pure (by simp))

omit m in
theorem mirrors_branch (keyword : Keyword) : Mirrors (branch keyword) (branch keyword) :=
  mirrors_takePlace.bind fun _ => mirrors_nextIsIdent.bind fun _ =>
    .ite (mirrors_expectIdent.some.bind fun _ => mirrors_pure (by simp))
      ((mirrors_pure rfl).bind fun _ => mirrors_pure (by simp))

theorem mirrors_keywordStmt (keyword : Keyword) :
    Mirrors (keywordStmt rules keyword) (keywordStmt rules keyword) := by
  unfold keywordStmt
  split
  · exact (mirrors_genDecl m .varKw).bind fun _ => mirrors_pure (by simp)
  · exact (mirrors_genDecl m .constKw).bind fun _ => mirrors_pure (by simp)
  · exact (mirrors_genDecl m .typeKw).bind fun _ => mirrors_pure (by simp)
  · exact mirrors_returnStmt m
  · exact mirrors_branch .breakKw
  · exact mirrors_branch .continueKw
  · exact mirrors_branch .gotoKw
  · exact mirrors_takePlace.bind fun _ => mirrors_pure (by simp)
  · exact m.ifStmt
  · exact mirrors_forStmt m
  · exact mirrors_switchStmt m
  · exact mirrors_selectStmt m
  · exact mirrors_takePlace.bind fun _ => (mirrors_callOperand m .goKw).bind fun _ =>
      mirrors_pure (by simp)
  · exact mirrors_takePlace.bind fun _ => (mirrors_callOperand m .deferKw).bind fun _ =>
      mirrors_pure (by simp)
  · exact mirrors_simpleStmt m true

theorem mirrors_stmt : Mirrors (stmt rules) (stmt rules) := by
  refine mirrors_peekKind? fun kind? => ?_
  split
  · exact mirrors_keywordStmt m _
  · exact m.block.bind fun _ => mirrors_pure (by simp)
  · exact mirrors_takePlace.bind fun _ => mirrors_pure (by simp)
  · exact mirrors_simpleStmt m true

omit m in
/-- Whether a statement ends with a semicolon does not depend on places. -/
theorem endsWithSemicolon_bare (stmt : Stmt) :
    endsWithSemicolon stmt.bare = endsWithSemicolon stmt := by
  cases stmt with
  | labeled label colon stmt => exact endsWithSemicolon_bare stmt
  | _ => rfl
termination_by structural stmt

theorem mirrors_stmtLine : Mirrors (stmtLine rules) (stmtLine rules) := by
  refine (mirrors_stmt m).bind fun stmt => ?_
  rw [bare_stmt, endsWithSemicolon_bare]
  exact .ite (mirrors_pure rfl) ((mirrors_endOfLine .rbrace).bind fun _ => mirrors_pure rfl)

theorem mirrors_stmts : Mirrors (stmts rules) (stmts rules) :=
  mirrors_many (mirrors_peekKind? fun _ => mirrors_pure rfl) (mirrors_stmtLine m)

theorem mirrors_block : Mirrors (block rules) (block rules) :=
  (mirrors_expectOp .lbrace).bind fun _ => (mirrors_stmts m).withLiterals.bind fun _ =>
    (mirrors_expectOp .rbrace).bind fun _ => mirrors_pure (by simp)

/-! ## Files -/

theorem mirrors_funcDecl : Mirrors (funcDecl rules) (funcDecl rules) := by
  have hbody : ∀ func (receiver? : Option FieldList) (name : Ident) (type : FuncType), Mirrors
      (do let body? ← if ← nextIsOp .lbrace then some <$> rules.block else pure none
          return FuncDecl.mk func receiver? name type body?)
      (do let body? ← if ← nextIsOp .lbrace then some <$> rules.block else pure none
          return FuncDecl.mk (bare func) (bare receiver?) (bare name) (bare type) body?) := by
    intro func receiver? name type
    refine (mirrors_nextIsOp .lbrace).bind fun _ => .ite ?_ ?_
    · exact m.block.some.bind fun _ => mirrors_pure (by simp)
    · exact (mirrors_pure rfl).bind fun _ => mirrors_pure (by simp)
  have hrest : ∀ func (receiver? : Option FieldList), Mirrors
      (do let name ← expectIdent
          if ← nextIsOp .lbrack then failHere (.unsupported .typeParameters)
          else
            let type ← signature rules none
            let body? ← if ← nextIsOp .lbrace then some <$> rules.block else pure none
            return FuncDecl.mk func receiver? name type body?)
      (do let name ← expectIdent
          if ← nextIsOp .lbrack then failHere (.unsupported .typeParameters)
          else
            let type ← signature rules none
            let body? ← if ← nextIsOp .lbrace then some <$> rules.block else pure none
            return FuncDecl.mk (bare func) (bare receiver?) name type body?) := by
    intro func receiver?
    refine mirrors_expectIdent.bind fun name => (mirrors_nextIsOp .lbrack).bind fun _ => ?_
    exact .ite mirrors_failHere ((mirrors_signature m none).bind fun type =>
      hbody func receiver? name type)
  refine (mirrors_expectKeyword .funcKw).bind fun func =>
    (mirrors_nextIsOp .lparen).bind fun _ => ?_
  refine .ite ?_ ?_
  · exact (mirrors_parameters m).some.bind (hrest func)
  · exact (mirrors_pure rfl).bind (hrest func)

theorem mirrors_decl : Mirrors (decl rules) (decl rules) := by
  refine mirrors_peekKeyword? fun keyword? => ?_
  split
  · exact (mirrors_funcDecl m).bind fun _ => mirrors_pure rfl
  · exact (mirrors_genDecl m .importKw).bind fun _ => mirrors_pure rfl
  · exact (mirrors_genDecl m .varKw).bind fun _ => mirrors_pure rfl
  · exact (mirrors_genDecl m .constKw).bind fun _ => mirrors_pure rfl
  · exact (mirrors_genDecl m .typeKw).bind fun _ => mirrors_pure rfl
  · exact mirrors_unexpected

theorem mirrors_declLine : Mirrors (declLine rules) (declLine rules) :=
  (mirrors_decl m).bind fun _ => mirrors_endOfDecl.bind fun _ => mirrors_pure rfl

theorem mirrors_file : Mirrors (file rules) (file rules) :=
  (mirrors_expectKeyword .packageKw).bind fun _ => mirrors_expectIdent.bind fun _ =>
    mirrors_endOfDecl.bind fun _ => (mirrors_many mirrors_atEnd (mirrors_declLine m)).bind fun _ =>
      mirrors_take.bind fun _ => mirrors_get.bind fun _ => mirrors_pure rfl

end Grammar

/-! ## All levels -/

/-- The rules of every level mirror themselves. -/
theorem mirroring_level (depth : Nat) : (Nested.level depth).Mirroring := by
  induction depth with
  | zero =>
    exact {
      type := Parser.mirrors_failHere
      expr := Parser.mirrors_failHere
      operand := Parser.mirrors_failHere
      literal := fun _ => Parser.mirrors_failHere
      block := Parser.mirrors_failHere
      ifStmt := Parser.mirrors_failHere
      stmt := Parser.mirrors_failHere
      stmts := Parser.mirrors_failHere }
  | succ depth m =>
    exact {
      type := Grammar.mirrors_type m
      expr := Grammar.mirrors_expr m
      operand := Grammar.mirrors_unary m
      literal := Grammar.mirrors_literal m
      block := Grammar.mirrors_block m
      ifStmt := Grammar.mirrors_ifStmt m
      stmt := Grammar.mirrors_stmt m
      stmts := Grammar.mirrors_stmts m }

/-- The outcome for a list of tokens is alike the outcome for the bare tokens. -/
theorem alike_parseTokens (ts : List Token) : Alike (parseTokens ts) (parseTokens (bare ts)) := by
  have h := Grammar.mirrors_file (mirroring_level maxNesting) ⟨true⟩ ⟨ts, #[], .zero⟩
  simp only [parseTokens]
  change Alike _ (((Grammar.file (.level maxNesting)).run ⟨true⟩).run ⟨bare ts, #[], .zero⟩) at h
  generalize ((Grammar.file (.level maxNesting)).run ⟨true⟩).run ⟨ts, #[], .zero⟩ = x at h ⊢
  generalize ((Grammar.file (.level maxNesting)).run ⟨true⟩).run ⟨bare ts, #[], .zero⟩ = y at h ⊢
  cases h with
  | ok result => exact .ok result.1
  | error h => exact .error h

/-- **Where tokens stand makes no difference.** Two lists of tokens of the same kinds, with whatever
places and comments, are either both read, and as trees that are the same but for places and the
comments of the file, or both refused, for the same reason and in the same words. -/
theorem parseTokens_alike {ts us : List Token} (h : ts.map (·.kind) = us.map (·.kind)) :
    (∃ file file', parseTokens ts = .ok file ∧ parseTokens us = .ok file' ∧
      file.bare = file'.bare) ∨
    ∃ e e', parseTokens ts = .error e ∧ parseTokens us = .error e' ∧ e.fault = e'.fault ∧
      e.fault.kind = e'.fault.kind ∧ e.message = e'.message := by
  have hts := alike_parseTokens ts
  have hus := alike_parseTokens us
  rw [bare_tokens, h, ← bare_tokens] at hts
  rcases hts.of_same hus with hok | ⟨e, e', he, he', hfault⟩
  · exact .inl hok
  · refine .inr ⟨e, e', he, he', hfault, congrArg ParseFault.kind hfault, ?_⟩
    exact congrArg ParseFault.message hfault

/-- A text with hardly any space. -/
def denseText : String := "package p\nfunc f()\x7bg(1)\x7d"

/-- The same tokens with comments, blank lines and spaces between them. -/
def airyText : String := "package p // a\n\n\tfunc f ( ) \x7b\tg( /* b */ 1 ) \x7d\n"

/-- `denseText` and `airyText` are read alike. -/
theorem parseTokens_alike_airyText :
    (tokens denseText).map (·.kind) = (tokens airyText).map (·.kind) ∧
    ∃ file file', parse denseText = .ok file ∧ parse airyText = .ok file' ∧
      file.bare = file'.bare := by
  have hkinds : (tokens denseText).map (·.kind) = (tokens airyText).map (·.kind) := by
    decide +kernel
  refine ⟨hkinds, ?_⟩
  rcases parseTokens_alike hkinds with hok | ⟨e, -, he, -⟩
  · exact hok
  · have hparsed : (parse denseText).toOption.isSome := by decide +kernel
    rw [parse, he] at hparsed
    cases hparsed

end GoTrace
