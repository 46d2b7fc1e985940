import GoTrace.Proofs.Layout.Nodes

/-!
# Well-formed trees

The types of the syntax tree leave more freedom than the grammar does: an optional mark may be there
without the part behind it, or a declaration of imports may hold a constant. `Node.Formed` says of a
node that its optional parts fit together, and `Node.Keyed` that the signatures in it have the
keyword `func` where they should. Both look at a node and its parts only; that they hold everywhere
in a tree is `Node.Whole`, which is proved from the parts of a node upwards.

A label may stand in front of a closing brace. Then the statement behind it is empty, without a
token of its own, and the constructs that end with it have no token at their end either.
`Stmt.openEnd?` says where that is.
-/

namespace GoTrace

/-! ## Open ends -/

mutual

/-- The place of the implicit empty statement that a statement ends with, if it ends so. -/
def Stmt.openEnd? : Stmt → Option Offset
  | .empty place implicit => if implicit then some place else none
  | .labeled _ _ stmt => stmt.openEnd?
  | .caseClause _ _ _ _ _ body | .commClause _ _ _ _ body => Stmt.lastOpenEnd? body
  | _ => none

/-- The place of the implicit empty statement that the last of some statements ends with. -/
def Stmt.lastOpenEnd? : List Stmt → Option Offset
  | [] => none
  | stmt :: stmts => if stmts.isEmpty then stmt.openEnd? else Stmt.lastOpenEnd? stmts

end

/-- Only the last of some statements may have an open end. -/
def Stmt.OpenLast (stmts : List Stmt) : Prop := ∀ stmt ∈ stmts.dropLast, stmt.openEnd? = none

/-! ## Conditions on nodes -/

/-- Whether a statement may stand in the header of another. -/
def Stmt.isSimple : Stmt → Bool
  | .expr _ | .send _ _ _ | .assign _ _ _ _ _ _ | .incDec _ _ _ => true
  | _ => false

/-- Whether a statement may stand behind `else`. -/
def Stmt.isElse : Stmt → Bool
  | .block _ | .ifStmt _ _ _ _ _ _ _ => true
  | _ => false

/-- Whether an entry may stand in a declaration that the keyword begins. -/
def Spec.fits : Spec → Keyword → Bool
  | .importPath _ _, .importKw | .typeName _ _ _, .typeKw => true
  | .values _ _ _ _ _ _, .varKw | .values _ _ _ _ _ _, .constKw => true
  | _, _ => false

/-- The optional parts of an expression fit together. -/
def Expr.Formed : Expr → Prop
  | .bad _ => False
  | .slice _ _ _ _ high? secondColon? max? _ =>
    secondColon?.isSome = max?.isSome ∧ (max?.isSome → high?.isSome)
  | .typeAssert _ _ _ type? typeKeyword? _ => type?.isSome = !typeKeyword?.isSome
  | .chanType _ arrow? dir _ => arrow?.isSome ↔ dir ≠ .both
  | _ => True

/-- The brackets of a list of fields are both there, or both missing around one field without names.
-/
def FieldList.Formed (l : FieldList) : Prop :=
  l.opening?.isSome = l.closing?.isSome ∧
    (l.opening? = none → ∃ field, l.fields = [field] ∧ field.names = [])

/-- Only the last statement of a block may have an open end, which is at the closing brace. -/
def Block.Formed (block : Block) : Prop :=
  Stmt.OpenLast block.stmts ∧ ∀ place ∈ Stmt.lastOpenEnd? block.stmts, place = block.rbrace

/-- The optional parts of a statement fit together. -/
def Stmt.Formed : Stmt → Prop
  | .bad _ => False
  | .block b => b.Formed
  | .ifStmt _ init? semicolon? _ _ elsePlace? else? =>
    init?.isSome = semicolon?.isSome ∧ elsePlace?.isSome = else?.isSome ∧
      (∀ init ∈ init?, init.isSimple) ∧ ∀ stmt ∈ else?, stmt.isElse
  | .forStmt _ init? initSemicolon? _ condSemicolon? post? _ =>
    initSemicolon?.isSome = condSemicolon?.isSome ∧
      (init?.isSome ∨ post?.isSome → initSemicolon?.isSome) ∧
      (∀ init ∈ init?, init.isSimple) ∧ ∀ post ∈ post?, post.isSimple
  | .rangeStmt _ key? comma? value? opPlace? op? _ _ _ =>
    comma?.isSome = value?.isSome ∧ (value?.isSome → key?.isSome) ∧
      key?.isSome = opPlace?.isSome ∧ key?.isSome = op?.isSome ∧
      ∀ op ∈ op?, op = .assign ∨ op = .define
  | .switchStmt _ init? semicolon? _ _ =>
    init?.isSome = semicolon?.isSome ∧ ∀ init ∈ init?, init.isSimple
  | .typeSwitch _ init? semicolon? guard _ =>
    init?.isSome = semicolon?.isSome ∧ (∀ init ∈ init?, init.isSimple) ∧ guard.isSimple
  | .caseClause _ _ _ _ _ body => Stmt.OpenLast body
  | .commClause _ _ comm? _ body => (∀ comm ∈ comm?, comm.isSimple) ∧ Stmt.OpenLast body
  | _ => True

/-- Constants and variables have a name. -/
def Spec.Formed : Spec → Prop
  | .values names _ _ _ _ _ => names ≠ []
  | _ => True

/-- The brackets of a declaration are both there, or both missing around one entry, and its entries
are such as its keyword says. A declared function has its keyword itself. -/
def Decl.Formed : Decl → Prop
  | .bad _ => False
  | .gen decl =>
    decl.lparen?.isSome = decl.rparen?.isSome ∧
      (decl.lparen? = none → ∃ spec, decl.specs = [spec]) ∧
      decl.keyword ∈ [.importKw, .constKw, .typeKw, .varKw] ∧
      ∀ spec ∈ decl.specs, spec.fits decl.keyword
  | .func decl => decl.type.func? = none

/-- **The optional parts of a node fit together**, and the node is no placeholder. -/
def Node.Formed : Node → Prop
  | .decl d => d.Formed
  | .spec s => s.Formed
  | .stmt s => s.Formed
  | .expr e => e.Formed
  | .fieldList l => l.Formed
  | .file _ | .field _ => True

/-! ### Signatures -/

/-- Whether a type is a signature without the keyword `func`. -/
def Expr.isBareSignature : Expr → Bool
  | .funcType type => type.func?.isNone
  | _ => false

/-- A node is no signature without its keyword, and no field of it is one. -/
def Node.Typed : Node → Prop
  | .expr e => e.isBareSignature = false
  | .field f => f.type.isBareSignature = false
  | .fieldList l => ∀ field ∈ l.fields, field.type.isBareSignature = false
  | .file _ | .decl _ | .spec _ | .stmt _ => True

/-- A method of an interface has one name and a signature without keyword; an embedded type has no
name, and is no such signature. -/
def Field.IsMember (f : Field) : Prop :=
  (f.names.length = 1 ∧ f.type.isBareSignature = true) ∨
    (f.names = [] ∧ f.type.isBareSignature = false)

/-- **The signatures in a node have their keyword**, but for the methods of an interface. Fields are
judged by what the list that they are in is a part of. -/
def Node.Keyed : Node → Prop
  | .expr (.interfaceType _ methods) => ∀ field ∈ methods.fields, field.IsMember
  | .fieldList _ | .field _ => True
  | node => ∀ part ∈ node.parts, part.Typed

/-! ## Whole trees -/

/-- A node and all nodes in it are well formed. -/
def Node.AllFormed (node : Node) : Prop := ∀ m ∈ node.preorder, m.Formed ∧ m.Keyed

/-- A node is well formed with all nodes in it, and no signature without keyword. -/
def Node.Whole (node : Node) : Prop := node.Typed ∧ node.AllFormed

/-- A tree is well formed if its root is and the trees of its parts are. -/
theorem Node.allFormed_of_parts {node : Node} (hformed : node.Formed) (hkeyed : node.Keyed)
    (hparts : ∀ part ∈ node.parts, part.AllFormed) : node.AllFormed := by
  intro m hm
  rw [preorder_eq, List.mem_cons, List.mem_flatMap] at hm
  rcases hm with rfl | ⟨part, hpart, hm⟩
  · exact ⟨hformed, hkeyed⟩
  · exact hparts part hpart m hm

/-- The parts of a tree are well formed. -/
theorem Node.AllFormed.of_mem_parts {node part : Node} (h : node.AllFormed)
    (hpart : part ∈ node.parts) : part.AllFormed :=
  fun m hm => h m (preorder_subset_of_mem_parts hpart hm)

/-- The trees in a tree are well formed. -/
theorem Node.AllFormed.of_mem_preorder {root node : Node} (h : root.AllFormed)
    (hnode : node ∈ root.preorder) : node.AllFormed := by
  induction root using Node.preorder.induct with
  | _ root ih =>
  rw [preorder_eq, List.mem_cons, List.mem_flatMap] at hnode
  rcases hnode with rfl | ⟨part, hpart, hnode⟩
  · exact h
  · exact ih part hpart (h.of_mem_parts hpart) hnode

/-- The root of a tree is one of its nodes. -/
theorem Node.AllFormed.formed {node : Node} (h : node.AllFormed) : node.Formed :=
  (h node node.mem_preorder_self).1

theorem Node.AllFormed.keyed {node : Node} (h : node.AllFormed) : node.Keyed :=
  (h node node.mem_preorder_self).2

/-- An expression is well formed with all nodes in it, and no signature without keyword. -/
def Expr.Whole (e : Expr) : Prop := (Node.expr e).Whole

/-- A statement is well formed with all nodes in it. -/
def Stmt.Whole (s : Stmt) : Prop := (Node.stmt s).Whole

/-- An entry of a declaration is well formed with all nodes in it. -/
def Spec.Whole (s : Spec) : Prop := (Node.spec s).Whole

/-- A declaration is well formed with all nodes in it. -/
def Decl.Whole (d : Decl) : Prop := (Node.decl d).Whole

/-- A field is well formed with all nodes in it, and its type is no signature without keyword. -/
def Field.Whole (f : Field) : Prop := (Node.field f).Whole

/-- A list of fields is well formed with all nodes in it, and none of its types is a signature
without keyword. -/
def FieldList.Whole (l : FieldList) : Prop := (Node.fieldList l).Whole

@[simp] theorem Node.whole_expr {e : Expr} : (Node.expr e).Whole ↔ e.Whole := Iff.rfl

@[simp] theorem Node.whole_stmt {s : Stmt} : (Node.stmt s).Whole ↔ s.Whole := Iff.rfl

@[simp] theorem Node.whole_spec {s : Spec} : (Node.spec s).Whole ↔ s.Whole := Iff.rfl

@[simp] theorem Node.whole_decl {d : Decl} : (Node.decl d).Whole ↔ d.Whole := Iff.rfl

@[simp] theorem Node.whole_field {f : Field} : (Node.field f).Whole ↔ f.Whole := Iff.rfl

@[simp] theorem Node.whole_fieldList {l : FieldList} : (Node.fieldList l).Whole ↔ l.Whole := Iff.rfl

/-- Whether an expression is neither a signature without keyword nor an interface. -/
def Expr.isOrdinary : Expr → Bool
  | .funcType type => type.func?.isSome
  | .interfaceType _ _ => false
  | _ => true

theorem Expr.whole_of_parts {e : Expr} (hordinary : e.isOrdinary = true) (hformed : e.Formed)
    (hparts : ∀ part ∈ e.parts, part.Whole) : e.Whole := by
  have hkeyed : (Node.expr e).Keyed := by
    cases e with
    | interfaceType interface methods => cases hordinary
    | _ => exact fun part hpart => (hparts part hpart).1
  refine ⟨?_, Node.allFormed_of_parts hformed hkeyed fun part hpart => (hparts part hpart).2⟩
  cases e with
  | funcType type => simpa [isOrdinary, Node.Typed, isBareSignature] using hordinary
  | _ => rfl

@[simp] theorem Expr.whole_ident {name : Ident} : (Expr.ident name).Whole :=
  whole_of_parts rfl trivial nofun

@[simp] theorem Expr.whole_basicLit {literal : BasicLit} : (Expr.basicLit literal).Whole :=
  whole_of_parts rfl trivial nofun

theorem Stmt.whole_of_parts {s : Stmt} (hformed : s.Formed)
    (hparts : ∀ part ∈ s.parts, part.Whole) : s.Whole :=
  ⟨trivial, Node.allFormed_of_parts hformed (fun part hpart => (hparts part hpart).1)
    fun part hpart => (hparts part hpart).2⟩

theorem Spec.whole_of_parts {s : Spec} (hformed : s.Formed)
    (hparts : ∀ part ∈ s.parts, part.Whole) : s.Whole :=
  ⟨trivial, Node.allFormed_of_parts hformed (fun part hpart => (hparts part hpart).1)
    fun part hpart => (hparts part hpart).2⟩

theorem Decl.whole_of_parts {d : Decl} (hformed : d.Formed)
    (hparts : ∀ part ∈ d.parts, part.Whole) : d.Whole :=
  ⟨trivial, Node.allFormed_of_parts hformed (fun part hpart => (hparts part hpart).1)
    fun part hpart => (hparts part hpart).2⟩

theorem Spec.whole_values {names : List Ident} {nameCommas valueCommas : List Offset}
    {type? : Option Expr} {assign? : Option Offset} {exprs : List Expr} (hnames : names ≠ [])
    (htype : ∀ x ∈ type?, x.Whole) (hexprs : ∀ x ∈ exprs, x.Whole) :
    (values names nameCommas type? assign? exprs valueCommas).Whole := by
  refine whole_of_parts hnames ?_
  simpa [Spec.parts, or_imp, forall_and] using ⟨htype, hexprs⟩

/-! ### Statements with optional parts -/

namespace Stmt

variable {place colon : Offset} {keyword : Keyword} {init? else? comm? : Option Stmt}
  {semicolon? elsePlace? : Option Offset} {body : Block} {stmts : List Stmt}

theorem whole_ifStmt {cond : Expr} (htogether : init?.isSome = semicolon?.isSome)
    (hinit : ∀ s ∈ init?, s.Whole) (hsimple : ∀ s ∈ init?, s.isSimple) (hcond : cond.Whole)
    (hbody : (block body).Whole) (helsePlace : elsePlace?.isSome = else?.isSome)
    (helse : ∀ s ∈ else?, s.Whole ∧ s.isElse) :
    (ifStmt place init? semicolon? cond body elsePlace? else?).Whole := by
  refine whole_of_parts ⟨htogether, helsePlace, hsimple, fun s hs => (helse s hs).2⟩ ?_
  have helse := fun s hs => (helse s hs).1
  simpa [Stmt.parts, or_imp, forall_and] using ⟨hinit, hcond, hbody, helse⟩

theorem whole_switchStmt {tag? : Option Expr} (htogether : init?.isSome = semicolon?.isSome)
    (hinit : ∀ s ∈ init?, s.Whole) (hsimple : ∀ s ∈ init?, s.isSimple)
    (htag : ∀ x ∈ tag?, x.Whole) (hbody : (block body).Whole) :
    (switchStmt place init? semicolon? tag? body).Whole := by
  refine whole_of_parts ⟨htogether, hsimple⟩ ?_
  simpa [Stmt.parts, or_imp, forall_and] using ⟨hinit, htag, hbody⟩

theorem whole_caseClause {exprs : List Expr} {commas : List Offset} (hexprs : ∀ x ∈ exprs, x.Whole)
    (hstmts : (∀ s ∈ stmts, s.Whole) ∧ OpenLast stmts) :
    (caseClause place keyword exprs commas colon stmts).Whole := by
  refine whole_of_parts hstmts.2 ?_
  simpa [Stmt.parts, or_imp, forall_and] using ⟨hexprs, hstmts.1⟩

theorem whole_commClause (hcomm : ∀ s ∈ comm?, s.Whole ∧ s.isSimple)
    (hstmts : (∀ s ∈ stmts, s.Whole) ∧ OpenLast stmts) :
    (commClause place keyword comm? colon stmts).Whole := by
  refine whole_of_parts ⟨fun s hs => (hcomm s hs).2, hstmts.2⟩ ?_
  have hcomm := fun s hs => (hcomm s hs).1
  simpa [Stmt.parts, or_imp, forall_and] using ⟨hcomm, hstmts.1⟩

end Stmt

/-! ### Fields and signatures -/

/-- The names and the tag of a field are well formed in any case. -/
theorem Field.allFormed_of_type {f : Field} (htype : (Node.expr f.type).AllFormed) :
    (Node.field f).AllFormed := by
  refine Node.allFormed_of_parts trivial trivial fun part hpart => ?_
  simp only [Node.parts, List.mem_append, List.mem_map, List.mem_singleton] at hpart
  rcases hpart with (⟨name, -, rfl⟩ | rfl) | ⟨literal, -, rfl⟩
  · exact Expr.whole_ident.2
  · exact htype
  · exact Expr.whole_basicLit.2

theorem Field.whole_of_type {f : Field} (htype : f.type.Whole) : f.Whole :=
  ⟨htype.1, allFormed_of_type htype.2⟩

theorem FieldList.allFormed_of_fields {l : FieldList} (hformed : l.Formed)
    (hfields : ∀ field ∈ l.fields, (Node.field field).AllFormed) : (Node.fieldList l).AllFormed :=
  Node.allFormed_of_parts hformed trivial (List.forall_mem_map.2 hfields)

theorem FieldList.whole_of_fields {l : FieldList} (hformed : l.Formed)
    (hfields : ∀ field ∈ l.fields, field.Whole) : l.Whole :=
  ⟨fun field hfield => (hfields field hfield).1,
    allFormed_of_fields hformed fun field hfield => (hfields field hfield).2⟩

/-- A signature without its keyword is well formed but for that. -/
theorem FuncType.allFormed_of_parts {type : FuncType} (hparams : type.params.Whole)
    (hresults : ∀ l ∈ type.results?, l.Whole) : (Node.expr (.funcType type)).AllFormed := by
  obtain ⟨func?, params, results?⟩ := type
  have hparts : ∀ part ∈ (Expr.funcType ⟨func?, params, results?⟩).parts, part.Whole := by
    simpa [Expr.parts] using ⟨hparams, hresults⟩
  exact Node.allFormed_of_parts trivial (fun part hpart => (hparts part hpart).1)
    fun part hpart => (hparts part hpart).2

/-- An interface is well formed if its members are. -/
theorem Expr.whole_interfaceType {interface : Offset} {methods : FieldList}
    (hformed : methods.Formed) (hmembers : ∀ field ∈ methods.fields,
      field.IsMember ∧ (Node.field field).AllFormed) : (interfaceType interface methods).Whole := by
  have hmethods := FieldList.allFormed_of_fields hformed fun field hfield =>
    (hmembers field hfield).2
  refine ⟨rfl, Node.allFormed_of_parts trivial (fun field hfield => (hmembers field hfield).1) ?_⟩
  exact List.forall_mem_singleton.2 hmethods

end GoTrace
