import GoTrace.Layout.OfSyntax
import GoTrace.Proofs.Layout.Events

/-!
# The nodes of a syntax tree

A layout says which parts a construct has, and it may say so wrongly: it could forget a part, list
one twice, or list two in the wrong order. So the parts are listed here a second time, from the tree
alone and without a word about tokens and checkpoints (`Node.parts`), and with them every node of a
tree, each in front of its parts (`Node.preorder`). That the layouts hold just these nodes is
`Node.parts_layout` for one construct and `Node.preorder_layout` for a tree.
-/

namespace GoTrace

/-! ## Nodes -/

/-- A node of a syntax tree. Names, literals, calls and signatures are expressions, and blocks are
statements, also where they stand alone. -/
inductive Node
  | file (file : File)
  | decl (decl : Decl)
  | spec (spec : Spec)
  | stmt (stmt : Stmt)
  | expr (expr : Expr)
  | fieldList (fields : FieldList)
  | field (field : Field)

/-- The parts of an expression or type. -/
def Expr.parts : Expr → List Node
  | .bad _ | .ident _ | .basicLit _ => []
  | .compositeLit type? _ elements _ _ => type?.toList.map .expr ++ elements.map .expr
  | .keyValue key _ value => [.expr key, .expr value]
  | .paren _ inner _ => [.expr inner]
  | .selector base _ name => [.expr base, .expr (.ident name)]
  | .index base _ place _ => [.expr base, .expr place]
  | .slice base _ low? _ high? _ max? _ =>
    .expr base :: (low?.toList ++ high?.toList ++ max?.toList).map .expr
  | .typeAssert base _ _ type? _ _ => .expr base :: type?.toList.map .expr
  | .star _ operand | .unary _ _ operand => [.expr operand]
  | .binary left _ _ right => [.expr left, .expr right]
  | .call { fn, args, .. } => .expr fn :: args.map .expr
  | .funcLit type body => [.expr (.funcType type), .stmt (.block body)]
  | .arrayType _ length? _ element => length?.toList.map .expr ++ [.expr element]
  | .mapType _ _ key _ value => [.expr key, .expr value]
  | .structType _ fields => [.fieldList fields]
  | .funcType { params, results?, .. } => .fieldList params :: results?.toList.map .fieldList
  | .interfaceType _ methods => [.fieldList methods]
  | .chanType _ _ _ value => [.expr value]
  | .ellipsis _ element? => element?.toList.map .expr

/-- The parts of a statement. -/
def Stmt.parts : Stmt → List Node
  | .bad _ | .empty _ _ => []
  | .labeled label _ stmt => [.expr (.ident label), .stmt stmt]
  | .decl d => [.decl (.gen d)]
  | .expr e => [.expr e]
  | .send channel _ value => [.expr channel, .expr value]
  | .assign left _ _ _ right _ => (left ++ right).map .expr
  | .incDec operand _ _ => [.expr operand]
  | .returnStmt _ results _ => results.map .expr
  | .branch _ _ label? => label?.toList.map (.expr ∘ .ident)
  | .block { stmts, .. } => stmts.map .stmt
  | .ifStmt _ init? _ cond body _ else? =>
    init?.toList.map .stmt ++ [.expr cond, .stmt (.block body)] ++ else?.toList.map .stmt
  | .forStmt _ init? _ cond? _ post? body =>
    init?.toList.map .stmt ++ cond?.toList.map .expr ++ post?.toList.map .stmt ++
      [.stmt (.block body)]
  | .rangeStmt _ key? _ value? _ _ _ operand body =>
    (key?.toList ++ value?.toList ++ [operand]).map .expr ++ [.stmt (.block body)]
  | .switchStmt _ init? _ tag? body =>
    init?.toList.map .stmt ++ tag?.toList.map .expr ++ [.stmt (.block body)]
  | .caseClause _ _ exprs _ _ body => exprs.map .expr ++ body.map .stmt
  | .typeSwitch _ init? _ guard body =>
    init?.toList.map .stmt ++ [.stmt guard, .stmt (.block body)]
  | .selectStmt _ body => [.stmt (.block body)]
  | .commClause _ _ comm? _ body => (comm?.toList ++ body).map .stmt
  | .goStmt _ call | .deferStmt _ call => [.expr (.call call)]

/-- The parts of one entry of a declaration. -/
def Spec.parts : Spec → List Node
  | .importPath name? path => name?.toList.map (.expr ∘ .ident) ++ [.expr (.basicLit path)]
  | .values names _ type? _ exprs _ =>
    names.map (.expr ∘ .ident) ++ (type?.toList ++ exprs).map .expr
  | .typeName name _ type => [.expr (.ident name), .expr type]

/-- The parts of a declaration. A declared function has the parameters and results of its signature
for parts, and not the signature. -/
def Decl.parts : Decl → List Node
  | .bad _ => []
  | .gen { specs, .. } => specs.map .spec
  | .func { receiver?, name, type, body?, .. } =>
    receiver?.toList.map .fieldList ++ [.expr (.ident name), .fieldList type.params] ++
      type.results?.toList.map .fieldList ++ body?.toList.map (.stmt ∘ .block)

namespace Node

/-- The nodes directly in a node, in the order of the text. -/
def parts : Node → List Node
  | .file f => .expr (.ident f.name) :: f.decls.map .decl
  | .decl d => d.parts
  | .spec s => s.parts
  | .stmt s => s.parts
  | .expr e => e.parts
  | .fieldList l => l.fields.map .field
  | .field f =>
    f.names.map (.expr ∘ .ident) ++ [.expr f.type] ++ f.tag?.toList.map (.expr ∘ .basicLit)

/-- The layout of a node. -/
def layout : Node → Layout
  | .file f => f.layout
  | .decl d => d.layout
  | .spec s => s.layout
  | .stmt s => s.layout
  | .expr e => e.layout
  | .fieldList l => l.layout
  | .field f => f.layout

/-- The bytes that a node covers. -/
def span (node : Node) : Span := node.layout.span

end Node

/-- The kind of an expression or type. -/
def Expr.kind : Expr → NodeKind
  | .bad _ => .badExpr
  | .ident _ => .ident
  | .basicLit _ => .basicLit
  | .compositeLit .. => .compositeLit
  | .keyValue .. => .keyValueExpr
  | .paren .. => .parenExpr
  | .selector .. => .selectorExpr
  | .index .. => .indexExpr
  | .slice .. => .sliceExpr
  | .typeAssert .. => .typeAssertExpr
  | .star .. => .starExpr
  | .unary .. => .unaryExpr
  | .binary .. => .binaryExpr
  | .call _ => .callExpr
  | .funcLit .. => .funcLit
  | .arrayType .. => .arrayType
  | .mapType .. => .mapType
  | .structType .. => .structType
  | .funcType _ => .funcType
  | .interfaceType .. => .interfaceType
  | .chanType .. => .chanType
  | .ellipsis .. => .ellipsis

/-- The kind of a statement. -/
def Stmt.kind : Stmt → NodeKind
  | .bad _ => .badStmt
  | .empty .. => .emptyStmt
  | .labeled .. => .labeledStmt
  | .decl _ => .declStmt
  | .expr _ => .exprStmt
  | .send .. => .sendStmt
  | .assign .. => .assignStmt
  | .incDec .. => .incDecStmt
  | .returnStmt .. => .returnStmt
  | .branch .. => .branchStmt
  | .block _ => .blockStmt
  | .ifStmt .. => .ifStmt
  | .forStmt .. => .forStmt
  | .rangeStmt .. => .rangeStmt
  | .switchStmt .. => .switchStmt
  | .caseClause .. => .caseClause
  | .typeSwitch .. => .typeSwitchStmt
  | .selectStmt .. => .selectStmt
  | .commClause .. => .commClause
  | .goStmt .. => .goStmt
  | .deferStmt .. => .deferStmt

/-- The kind of a node. -/
def Node.kind : Node → NodeKind
  | .file _ => .file
  | .decl (.bad _) => .badDecl
  | .decl (.gen _) => .genDecl
  | .decl (.func _) => .funcDecl
  | .spec (.importPath ..) => .importSpec
  | .spec (.values ..) => .valueSpec
  | .spec (.typeName ..) => .typeSpec
  | .stmt s => s.kind
  | .expr e => e.kind
  | .fieldList _ => .fieldList
  | .field _ => .field

/-! ## Runs and optional parts -/

@[simp]
theorem Expr.layouts_eq_map (exprs : List Expr) : Expr.layouts exprs = exprs.map Expr.layout := by
  induction exprs with
  | nil => rfl
  | cons expr exprs ih => rw [Expr.layouts, ih, List.map_cons]

@[simp]
theorem Stmt.layouts_eq_map (stmts : List Stmt) : Stmt.layouts stmts = stmts.map Stmt.layout := by
  induction stmts with
  | nil => rfl
  | cons stmt stmts ih => rw [Stmt.layouts, ih, List.map_cons]

@[simp]
theorem Field.layouts_eq_map (fields : List Field) :
    Field.layouts fields = fields.map Field.layout := by
  induction fields with
  | nil => rfl
  | cons field fields ih => rw [Field.layouts, ih, List.map_cons]

@[simp]
theorem Spec.layouts_eq_map (specs : List Spec) : Spec.layouts specs = specs.map Spec.layout := by
  induction specs with
  | nil => rfl
  | cons spec specs ih => rw [Spec.layouts, ih, List.map_cons]

@[simp]
theorem Expr.layout?_eq_map (expr? : Option Expr) : Expr.layout? expr? = expr?.map Expr.layout := by
  cases expr? <;> rfl

@[simp]
theorem Stmt.layout?_eq_map (stmt? : Option Stmt) : Stmt.layout? stmt? = stmt?.map Stmt.layout := by
  cases stmt? <;> rfl

@[simp]
theorem FieldList.layout?_eq_map (fields? : Option FieldList) :
    FieldList.layout? fields? = fields?.map FieldList.layout := by
  cases fields? <;> rfl

/-! ## The parts of a layout -/

/-- The events of a row are those of its constructs, its tokens and its checkpoint. -/
private theorem Row.of_mem_events {row : Row} {owner : NodeKind} {depth : Nat} {e : Event}
    (h : e ∈ row.events owner depth) :
    (∃ l ∈ row.parts, e ∈ l.events depth) ∨ (∃ place text, e = .token owner place text) ∨
      ∃ label, row = .checkpoint label true ∧ e = .checkpoint owner label := by
  cases row with
  | token text place? =>
    cases place? with
    | none => cases h
    | some place => exact .inr (.inl ⟨place, text, List.mem_singleton.1 h⟩)
  | lexeme lexeme? =>
    cases lexeme? with
    | none => cases h
    | some lexeme => exact .inr (.inl ⟨lexeme.1, lexeme.2, List.mem_singleton.1 h⟩)
  | checkpoint label present =>
    cases present with
    | false => cases h
    | true => exact .inr (.inr ⟨label, rfl, List.mem_singleton.1 h⟩)
  | child layout? =>
    cases layout? with
    | none => cases h
    | some layout => exact .inl ⟨layout, List.mem_singleton_self layout, h⟩
  | list items separators =>
    rcases Layout.of_mem_runEvents h with hitem | ⟨place, -, he⟩
    · exact .inl hitem
    · exact .inr (.inl ⟨place, ",", he⟩)

/-- The events of some rows are those of their constructs, and tokens and checkpoints. -/
theorem Row.of_mem_allEvents {rows : List Row} {owner : NodeKind} {depth : Nat} {e : Event}
    (h : e ∈ allEvents owner depth rows) :
    (∃ l ∈ rows.flatMap parts, e ∈ l.events depth) ∨ (∃ place text, e = .token owner place text) ∨
      ∃ label, .checkpoint label true ∈ rows ∧ e = .checkpoint owner label := by
  induction rows with
  | nil => cases h
  | cons row rows ih =>
    rw [List.flatMap_cons]
    rcases List.mem_append.1 h with h | h
    · refine (of_mem_events h).imp (fun ⟨l, hl, he⟩ => ?_) (.imp_right fun ⟨label, hrow, he⟩ => ?_)
      · exact ⟨l, List.mem_append_left _ hl, he⟩
      · exact ⟨label, hrow ▸ List.mem_cons_self, he⟩
    · refine (ih h).imp (fun ⟨l, hl, he⟩ => ?_) (.imp_right fun ⟨label, hrow, he⟩ => ?_)
      · exact ⟨l, List.mem_append_right _ hl, he⟩
      · exact ⟨label, List.mem_cons_of_mem _ hrow, he⟩

namespace Layout

/-- The constructs directly in a construct, in the order of its rows. -/
def parts : Layout → List Layout
  | node _ _ rows => rows.flatMap Row.parts
  | placeholder _ _ => []

private theorem heights_of_mem {l : Layout} {ls : List Layout} (h : l ∈ ls) :
    l.height ≤ heights ls := by
  induction ls with
  | nil => cases h
  | cons other ls ih =>
    rw [heights]
    rcases List.mem_cons.1 h with rfl | h
    · exact Nat.le_max_left ..
    · exact Nat.le_trans (ih h) (Nat.le_max_right ..)

private theorem heights_of_mem_parts {l : Layout} {rows : List Row}
    (h : l ∈ rows.flatMap Row.parts) : l.height ≤ Row.heights rows := by
  induction rows with
  | nil => cases h
  | cons row rows ih =>
    rw [Row.heights]
    rcases List.mem_append.1 (List.flatMap_cons ▸ h) with h | h
    · refine Nat.le_trans ?_ (Nat.le_max_left ..)
      cases row with
      | child layout? =>
        obtain rfl : layout? = some l := by simpa [Row.parts] using h
        exact Nat.le_refl _
      | list items separators => exact heights_of_mem h
      | token _ _ => cases h
      | lexeme _ => cases h
      | checkpoint _ _ => cases h
    · exact Nat.le_trans (ih h) (Nat.le_max_right ..)

/-- A construct is lower than the one it is a part of. -/
theorem height_lt_of_mem_parts {l m : Layout} (h : l ∈ m.parts) : l.height < m.height := by
  cases m with
  | node kind span rows => exact Nat.lt_succ_of_le (heights_of_mem_parts h)
  | placeholder kind span => cases h

/-- What holds of a construct whenever it holds of its parts holds of every construct. -/
@[elab_as_elim]
theorem inductionOnParts {P : Layout → Prop}
    (ofParts : ∀ l : Layout, (∀ m ∈ l.parts, P m) → P l) (l : Layout) : P l :=
  ofParts l fun m _ => inductionOnParts ofParts m
termination_by l.height
decreasing_by exact height_lt_of_mem_parts ‹_›

private theorem events_subset_runEvents {owner : NodeKind} {depth : Nat} {l : Layout}
    {items : List Layout} {separators : List Offset} (h : l ∈ items) :
    l.events depth ⊆ runEvents owner depth items separators := by
  induction items generalizing separators with
  | nil => cases h
  | cons item items ih =>
    rw [runEvents]
    rcases List.mem_cons.1 h with rfl | h
    · exact List.subset_append_of_subset_left _ (List.subset_append_right ..)
    · exact List.subset_append_of_subset_right _ (ih h)

private theorem events_subset_allEvents {owner : NodeKind} {depth : Nat} {l : Layout}
    {rows : List Row} (h : l ∈ rows.flatMap Row.parts) :
    l.events depth ⊆ Row.allEvents owner depth rows := by
  induction rows with
  | nil => cases h
  | cons row rows ih =>
    rw [Row.allEvents]
    rcases List.mem_append.1 (List.flatMap_cons ▸ h) with h | h
    · refine List.subset_append_of_subset_left _ ?_
      cases row with
      | child layout? =>
        obtain rfl : layout? = some l := by simpa [Row.parts] using h
        exact List.Subset.refl _
      | list items separators => exact events_subset_runEvents h
      | token _ _ => cases h
      | lexeme _ => cases h
      | checkpoint _ _ => cases h
    · exact List.subset_append_of_subset_right _ (ih h)

/-- The events of a part are among those of the construct. -/
theorem events_subset_of_mem_parts {l m : Layout} {depth : Nat} (h : l ∈ m.parts) :
    l.events (depth + 1) ⊆ m.events depth := by
  cases m with
  | node kind span rows =>
    rw [events]
    exact List.subset_append_of_subset_left _
      (List.subset_cons_of_subset _ (events_subset_allEvents h))
  | placeholder kind span => cases h

private theorem preorders_eq (ls : List Layout) : preorders ls = ls.flatMap preorder := by
  induction ls with
  | nil => rfl
  | cons l ls ih => rw [preorders, ih, List.flatMap_cons]

private theorem preorders_rows (rows : List Row) :
    Row.preorders rows = (rows.flatMap Row.parts).flatMap preorder := by
  induction rows with
  | nil => rfl
  | cons row rows ih =>
    rw [Row.preorders, ih, List.flatMap_cons, List.flatMap_append]
    congr 1
    cases row with
    | child layout? => cases layout? <;> simp [Row.preorder, Row.parts]
    | list items separators => exact preorders_eq items
    | token _ _ => rfl
    | lexeme _ => rfl
    | checkpoint _ _ => rfl

/-- The constructs in a construct are the construct and those in its parts. -/
theorem preorder_eq (l : Layout) : l.preorder = l :: l.parts.flatMap preorder := by
  cases l with
  | node kind span rows => rw [preorder, parts, preorders_rows]
  | placeholder kind span => rfl

/-- A placeholder in a construct has the event that refuses it. -/
theorem refuse_mem_events {l m : Layout} (hm : m ∈ l.preorder) (hrows : m.rows?.isNone)
    (depth : Nat) : .refuse m.kind m.start ∈ l.events depth := by
  induction l using inductionOnParts generalizing depth with
  | _ l ih =>
  rw [preorder_eq, List.mem_cons, List.mem_flatMap] at hm
  rcases hm with rfl | ⟨part, hpart, hm⟩
  · cases m with
    | node kind span rows => cases hrows
    | placeholder kind span => exact List.mem_singleton_self _
  · exact events_subset_of_mem_parts hpart (ih part hpart hm (depth + 1))

/-- A construct with an event that refuses a placeholder has the placeholder in it. -/
theorem exists_of_refuse_mem_events {l : Layout} {kind : NodeKind} {place : Offset} {depth : Nat}
    (h : .refuse kind place ∈ l.events depth) : ∃ m ∈ l.preorder, m.rows?.isNone := by
  induction l using inductionOnParts generalizing depth with
  | _ l ih =>
  rw [preorder_eq]
  cases l with
  | placeholder kind span => exact ⟨_, List.mem_cons_self, rfl⟩
  | node kind span rows =>
    rw [events, List.mem_append, List.mem_cons, List.mem_singleton] at h
    rcases h with (h | h) | h
    · cases h
    · rcases Row.of_mem_allEvents h with ⟨part, hpart, h⟩ | ⟨_, _, h⟩ | ⟨_, _, h⟩
      · obtain ⟨m, hm, hrows⟩ := ih part hpart h
        exact ⟨m, List.mem_cons_of_mem _ (List.mem_flatMap.2 ⟨part, hpart, hm⟩), hrows⟩
      · cases h
      · cases h
    · cases h

end Layout

/-! ## Nodes and layouts -/

namespace Node

private theorem parts_decl (d : Decl) : d.layout.parts = d.parts.map layout := by
  cases d with
  | bad span => rfl
  | gen decl =>
    cases decl
    simp [Decl.layout, GenDecl.layout, Layout.parts, Row.parts, Decl.parts, layout]
  | func decl =>
    cases decl
    simp [Decl.layout, FuncDecl.layout, Layout.parts, Row.parts, Decl.parts, layout, Expr.layout,
      Stmt.layout, Option.toList_map, Function.comp_def]

private theorem parts_spec (s : Spec) : s.layout.parts = s.parts.map layout := by
  cases s <;>
    simp [Spec.layout, Layout.parts, Row.parts, Spec.parts, layout, Expr.layout, Option.toList_map,
      Function.comp_def]

private theorem parts_stmt (s : Stmt) : s.layout.parts = s.parts.map layout := by
  cases s with
  | block block =>
    cases block
    simp [Stmt.layout, Block.layout, Layout.parts, Row.parts, Stmt.parts, layout, Function.comp_def]
  | _ =>
    simp [Stmt.layout, Layout.parts, Row.parts, Stmt.parts, layout, Expr.layout, Decl.layout,
      Option.toList_map, Function.comp_def]

private theorem parts_expr (e : Expr) : e.layout.parts = e.parts.map layout := by
  cases e with
  | call call =>
    cases call
    simp [Expr.layout, Call.layout, Layout.parts, Row.parts, Expr.parts, layout, Function.comp_def]
  | funcType type =>
    cases type
    simp [Expr.layout, FuncType.layout, Layout.parts, Row.parts, Expr.parts, layout,
      Option.toList_map, Function.comp_def]
  | _ =>
    simp [Expr.layout, Ident.layout, BasicLit.layout, Stmt.layout, Layout.parts, Row.parts,
      Expr.parts, layout, Option.toList_map, Function.comp_def]

/-- **The parts of a layout are those of its node.** -/
theorem parts_layout (node : Node) : node.layout.parts = node.parts.map layout := by
  cases node with
  | file f =>
    simp [layout, File.layout, Layout.parts, Row.parts, parts, Expr.layout, Function.comp_def]
  | decl d => exact parts_decl d
  | spec s => exact parts_spec s
  | stmt s => exact parts_stmt s
  | expr e => exact parts_expr e
  | fieldList l =>
    cases l
    simp [layout, FieldList.layout, Layout.parts, Row.parts, parts, Function.comp_def]
  | field f =>
    cases f
    simp [layout, Field.layout, Layout.parts, Row.parts, parts, Expr.layout, Option.toList_map,
      Function.comp_def]

/-- The constructs in the rows of a node are its parts. -/
theorem parts_rows {node : Node} {kind : NodeKind} {span : Span} {rows : List Row}
    (h : node.layout = .node kind span rows) : rows.flatMap Row.parts = node.parts.map layout := by
  rw [← parts_layout, h]
  rfl

/-- A node and every node in it, each in front of its parts. -/
def preorder (node : Node) : List Node :=
  node :: node.parts.attach.flatMap fun ⟨part, _⟩ => part.preorder
termination_by node.layout.height
decreasing_by
  refine Layout.height_lt_of_mem_parts ?_
  rw [parts_layout]
  exact List.mem_map_of_mem ‹_›

/-- The nodes in a node are the node and those in its parts. -/
theorem preorder_eq (node : Node) : node.preorder = node :: node.parts.flatMap preorder := by
  rw [preorder]
  simp

theorem mem_preorder_self (node : Node) : node ∈ node.preorder := by
  rw [preorder_eq]
  exact List.mem_cons_self

/-- The nodes in a part are among those in the node. -/
theorem preorder_subset_of_mem_parts {node part : Node} (hpart : part ∈ node.parts) :
    part.preorder ⊆ node.preorder := by
  rw [preorder_eq node]
  exact fun _ h => List.mem_cons_of_mem _ (List.mem_flatMap.2 ⟨part, hpart, h⟩)

/-- **The constructs of a layout are the nodes of the tree**, each once and in the same order. -/
theorem preorder_layout (node : Node) : node.layout.preorder = node.preorder.map layout := by
  induction node using preorder.induct with
  | _ node ih =>
  rw [Layout.preorder_eq, preorder_eq, parts_layout, List.map_cons, List.flatMap_map,
    List.map_flatMap, List.flatMap_def, List.flatMap_def, List.map_congr_left ih]

/-- A layout has the kind of its node, and it has rows unless the node is a placeholder. -/
theorem shape_layout (node : Node) :
    node.layout.kind = node.kind ∧ node.layout.rows?.isNone = node.kind.isPlaceholder := by
  cases node with
  | file f => exact ⟨rfl, rfl⟩
  | decl d => rcases d with _ | ⟨⟨_, _⟩⟩ | d <;> exact ⟨rfl, rfl⟩
  | spec s => cases s <;> exact ⟨rfl, rfl⟩
  | stmt s =>
    cases s with
    | block block => cases block; exact ⟨rfl, rfl⟩
    | _ => exact ⟨rfl, rfl⟩
  | expr e =>
    cases e with
    | call call => cases call; exact ⟨rfl, rfl⟩
    | funcType type => cases type; exact ⟨rfl, rfl⟩
    | _ => exact ⟨rfl, rfl⟩
  | fieldList l => cases l; exact ⟨rfl, rfl⟩
  | field f => cases f; exact ⟨rfl, rfl⟩

end Node

/-- Every node of a file, each in front of its parts. -/
def File.nodes (file : File) : List Node := (Node.file file).preorder

/-- The constructs of a file are its nodes. -/
theorem File.preorder_layout (file : File) : file.layout.preorder = file.nodes.map Node.layout :=
  (Node.file file).preorder_layout

end GoTrace
