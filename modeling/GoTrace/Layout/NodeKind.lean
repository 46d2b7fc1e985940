/-!
# Kinds of constructs

The kinds of nodes that a trace tells apart, by their usual names in tools for Go. The last three
are placeholders for text that could not be read; they have no layout.
-/

namespace GoTrace

/-- The kind of a construct. -/
inductive NodeKind
  | file | ident | basicLit | compositeLit | keyValueExpr | parenExpr | selectorExpr | indexExpr
  | sliceExpr | typeAssertExpr | starExpr | unaryExpr | binaryExpr | callExpr | funcLit
  | ellipsis | arrayType | mapType | structType | funcType | interfaceType | chanType | field
  | fieldList | declStmt | emptyStmt | labeledStmt | exprStmt | sendStmt | assignStmt
  | incDecStmt | returnStmt | branchStmt | blockStmt | ifStmt | forStmt | rangeStmt | switchStmt
  | caseClause | typeSwitchStmt | selectStmt | commClause | goStmt | deferStmt | genDecl
  | funcDecl | importSpec | valueSpec | typeSpec | badExpr | badStmt | badDecl
  deriving DecidableEq

namespace NodeKind

/-- Every kind, the placeholders last. -/
def all : List NodeKind :=
  [.file, .ident, .basicLit, .compositeLit, .keyValueExpr, .parenExpr, .selectorExpr, .indexExpr,
   .sliceExpr, .typeAssertExpr, .starExpr, .unaryExpr, .binaryExpr, .callExpr, .funcLit,
   .ellipsis, .arrayType, .mapType, .structType, .funcType, .interfaceType, .chanType, .field,
   .fieldList, .declStmt, .emptyStmt, .labeledStmt, .exprStmt, .sendStmt, .assignStmt,
   .incDecStmt, .returnStmt, .branchStmt, .blockStmt, .ifStmt, .forStmt, .rangeStmt, .switchStmt,
   .caseClause, .typeSwitchStmt, .selectStmt, .commClause, .goStmt, .deferStmt, .genDecl,
   .funcDecl, .importSpec, .valueSpec, .typeSpec, .badExpr, .badStmt, .badDecl]

/-- The name of a kind, as a trace prints it. -/
def name : NodeKind → String
  | .file => "File"
  | .ident => "Ident"
  | .basicLit => "BasicLit"
  | .compositeLit => "CompositeLit"
  | .keyValueExpr => "KeyValueExpr"
  | .parenExpr => "ParenExpr"
  | .selectorExpr => "SelectorExpr"
  | .indexExpr => "IndexExpr"
  | .sliceExpr => "SliceExpr"
  | .typeAssertExpr => "TypeAssertExpr"
  | .starExpr => "StarExpr"
  | .unaryExpr => "UnaryExpr"
  | .binaryExpr => "BinaryExpr"
  | .callExpr => "CallExpr"
  | .funcLit => "FuncLit"
  | .ellipsis => "Ellipsis"
  | .arrayType => "ArrayType"
  | .mapType => "MapType"
  | .structType => "StructType"
  | .funcType => "FuncType"
  | .interfaceType => "InterfaceType"
  | .chanType => "ChanType"
  | .field => "Field"
  | .fieldList => "FieldList"
  | .declStmt => "DeclStmt"
  | .emptyStmt => "EmptyStmt"
  | .labeledStmt => "LabeledStmt"
  | .exprStmt => "ExprStmt"
  | .sendStmt => "SendStmt"
  | .assignStmt => "AssignStmt"
  | .incDecStmt => "IncDecStmt"
  | .returnStmt => "ReturnStmt"
  | .branchStmt => "BranchStmt"
  | .blockStmt => "BlockStmt"
  | .ifStmt => "IfStmt"
  | .forStmt => "ForStmt"
  | .rangeStmt => "RangeStmt"
  | .switchStmt => "SwitchStmt"
  | .caseClause => "CaseClause"
  | .typeSwitchStmt => "TypeSwitchStmt"
  | .selectStmt => "SelectStmt"
  | .commClause => "CommClause"
  | .goStmt => "GoStmt"
  | .deferStmt => "DeferStmt"
  | .genDecl => "GenDecl"
  | .funcDecl => "FuncDecl"
  | .importSpec => "ImportSpec"
  | .valueSpec => "ValueSpec"
  | .typeSpec => "TypeSpec"
  | .badExpr => "BadExpr"
  | .badStmt => "BadStmt"
  | .badDecl => "BadDecl"

/-- Whether the kind is that of a placeholder. -/
def isPlaceholder : NodeKind → Bool
  | .badExpr | .badStmt | .badDecl => true
  | _ => false

theorem mem_all (k : NodeKind) : k ∈ all := by
  cases k <;> decide

/-- Different kinds have different names. -/
theorem name_injective {a b : NodeKind} (h : a.name = b.name) : a = b := by
  have ha : all.find? (·.name == a.name) = some a := by cases a <;> decide
  have hb : all.find? (·.name == b.name) = some b := by cases b <;> decide
  rw [h, hb] at ha
  exact (Option.some.inj ha).symm

end NodeKind

end GoTrace
