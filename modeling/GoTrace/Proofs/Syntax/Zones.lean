import GoTrace.Proofs.Layout.Nodes

/-!
# Where the nodes of a tree stand

A brace behind a name may open a composite literal, or the body of a statement whose header ends with
the name. Which of the two it does depends on where the name stands: in a header it opens the body,
unless there are brackets around the name that begin in the header, or the body of a function literal
is. A `Zone` says whether composite literals with a name for their type are open at a node, and what
the node is for. It is handed down from a node to its parts (`Node.partsIn`): headers close literals,
brackets and bodies open them again, and everything else leaves them as they are.

`Node.Occurs` goes down from a node to those in it, so a node occurs in the zone that all nodes above
it leave. The zones are given to the same parts that `Node.parts` lists (`Node.map_partsIn`), so every
node of a tree occurs in it.
-/

namespace GoTrace

/-- What a node is for where it stands. -/
inductive Role
  /-- An expression whose value is used, or a type that stands for a value. -/
  | operand
  /-- The type of a composite literal. -/
  | literalType
  /-- A name that is declared or selected, a type, or no expression at all. -/
  | other

/-- Where a node stands. -/
structure Zone where
  /-- Whether a brace behind a name opens a composite literal. -/
  literals : Bool
  role : Role

namespace Zone

/-- Where the bodies of functions and statements stand, and declarations outside all functions. -/
def body : Zone := ⟨true, .other⟩

/-- Where the statements in the header of another stand. -/
def header : Zone := ⟨false, .other⟩

/-- Where operands between brackets stand. -/
def inside : Zone := ⟨true, .operand⟩

/-- Where the operands of a node in the zone stand. -/
def operand (z : Zone) : Zone := ⟨z.literals, .operand⟩

/-- Where the names and types of a node in the zone stand. -/
def other (z : Zone) : Zone := ⟨z.literals, .other⟩

/-- Where an expression stands that another one in the zone is made of: it is an operand if the other
is one, or is the type of a literal. -/
def base (z : Zone) : Zone :=
  match z.role with
  | .operand | .literalType => z.operand
  | .other => z

@[simp] theorem base_operand (z : Zone) : z.operand.base = z.operand := rfl

@[simp] theorem base_other (z : Zone) : z.other.base = z.other := rfl

/-- An expression is the type of a literal only directly. -/
theorem base_role_ne (z : Zone) : z.base.role ≠ .literalType := by
  obtain ⟨literals, role⟩ := z
  cases role <;> nofun

end Zone

/-! ## Parts and their zones -/

/-- The parts of an expression or type in a zone. -/
def Expr.partsIn (z : Zone) : Expr → List (Zone × Node)
  | .bad _ | .ident _ | .basicLit _ => []
  | .compositeLit type? _ elements _ _ =>
    type?.toList.map (⟨z.literals, .literalType⟩, .expr ·) ++ elements.map (.inside, .expr ·)
  | .keyValue key _ value => [(z.base, .expr key), (z.base, .expr value)]
  | .paren _ inner _ => [(⟨true, z.base.role⟩, .expr inner)]
  | .selector base _ name => [(z.base, .expr base), (z.other, .expr (.ident name))]
  | .index base _ place _ => [(z.base, .expr base), (.inside, .expr place)]
  | .slice base _ low? _ high? _ max? _ =>
    (z.base, .expr base) :: (low?.toList ++ high?.toList ++ max?.toList).map (.inside, .expr ·)
  | .typeAssert base _ _ type? _ _ => (z.base, .expr base) :: type?.toList.map (z.other, .expr ·)
  | .star _ operand | .unary _ _ operand => [(z.base, .expr operand)]
  | .binary left _ _ right => [(z.base, .expr left), (z.base, .expr right)]
  | .call { fn, args, .. } => (z.base, .expr fn) :: args.map (.inside, .expr ·)
  | .funcLit type body => [(z.other, .expr (.funcType type)), (.body, .stmt (.block body))]
  | .arrayType _ length? _ element =>
    length?.toList.map (.inside, .expr ·) ++ [(z.other, .expr element)]
  | .mapType _ _ key _ value => [(z.other, .expr key), (z.other, .expr value)]
  | .structType _ fields => [(z.other, .fieldList fields)]
  | .funcType { params, results?, .. } =>
    (z.other, .fieldList params) :: results?.toList.map (z.other, .fieldList ·)
  | .interfaceType _ methods => [(z.other, .fieldList methods)]
  | .chanType _ _ _ value => [(z.other, .expr value)]
  | .ellipsis _ element? => element?.toList.map (z.other, .expr ·)

/-- The parts of a statement in a zone. -/
def Stmt.partsIn (z : Zone) : Stmt → List (Zone × Node)
  | .bad _ | .empty _ _ => []
  | .labeled label _ stmt => [(z.other, .expr (.ident label)), (z, .stmt stmt)]
  | .decl d => [(z, .decl (.gen d))]
  | .expr e => [(z.operand, .expr e)]
  | .send channel _ value => [(z.operand, .expr channel), (z.operand, .expr value)]
  | .assign left _ _ _ right _ => (left ++ right).map (z.operand, .expr ·)
  | .incDec operand _ _ => [(z.operand, .expr operand)]
  | .returnStmt _ results _ => results.map (z.operand, .expr ·)
  | .branch _ _ label? => label?.toList.map (z.other, .expr <| .ident ·)
  | .block { stmts, .. } => stmts.map (.body, .stmt ·)
  | .ifStmt _ init? _ cond body _ else? =>
    init?.toList.map (.header, .stmt ·) ++
      [(Zone.header.operand, .expr cond), (.body, .stmt (.block body))] ++
      else?.toList.map (z, .stmt ·)
  | .forStmt _ init? _ cond? _ post? body =>
    init?.toList.map (.header, .stmt ·) ++ cond?.toList.map (Zone.header.operand, .expr ·) ++
      post?.toList.map (.header, .stmt ·) ++ [(.body, .stmt (.block body))]
  | .rangeStmt _ key? _ value? _ _ _ operand body =>
    (key?.toList ++ value?.toList ++ [operand]).map (Zone.header.operand, .expr ·) ++
      [(.body, .stmt (.block body))]
  | .switchStmt _ init? _ tag? body =>
    init?.toList.map (.header, .stmt ·) ++ tag?.toList.map (Zone.header.operand, .expr ·) ++
      [(.body, .stmt (.block body))]
  | .caseClause _ _ exprs _ _ body => exprs.map (z.operand, .expr ·) ++ body.map (z, .stmt ·)
  | .typeSwitch _ init? _ guard body =>
    init?.toList.map (.header, .stmt ·) ++ [(.header, .stmt guard), (.body, .stmt (.block body))]
  | .selectStmt _ body => [(.body, .stmt (.block body))]
  | .commClause _ _ comm? _ body => (comm?.toList ++ body).map (z, .stmt ·)
  | .goStmt _ call | .deferStmt _ call => [(z.operand, .expr (.call call))]

/-- The parts of an entry of a declaration in a zone. -/
def Spec.partsIn (z : Zone) : Spec → List (Zone × Node)
  | .importPath name? path =>
    name?.toList.map (z.other, .expr <| .ident ·) ++ [(z.other, .expr (.basicLit path))]
  | .values names _ type? _ exprs _ =>
    names.map (z.other, .expr <| .ident ·) ++ type?.toList.map (z.other, .expr ·) ++
      exprs.map (z.operand, .expr ·)
  | .typeName name _ type => [(z.other, .expr (.ident name)), (z.other, .expr type)]

/-- The parts of a declaration in a zone. -/
def Decl.partsIn (z : Zone) : Decl → List (Zone × Node)
  | .bad _ => []
  | .gen { specs, .. } => specs.map (z, .spec ·)
  | .func { receiver?, name, type, body?, .. } =>
    receiver?.toList.map (z.other, .fieldList ·) ++
      [(z.other, .expr (.ident name)), (z.other, .fieldList type.params)] ++
      type.results?.toList.map (z.other, .fieldList ·) ++
      body?.toList.map (.body, .stmt <| .block ·)

namespace Node

/-- The nodes directly in a node in a zone, each with its own zone. -/
def partsIn (z : Zone) : Node → List (Zone × Node)
  | .file f => (.body, .expr (.ident f.name)) :: f.decls.map (.body, .decl ·)
  | .decl d => d.partsIn z
  | .spec s => s.partsIn z
  | .stmt s => s.partsIn z
  | .expr e => e.partsIn z
  | .fieldList l => l.fields.map (z.other, .field ·)
  | .field f =>
    f.names.map (z.other, .expr <| .ident ·) ++ [(z.other, .expr f.type)] ++
      f.tag?.toList.map (z.other, .expr <| .basicLit ·)

/-- The zones are those of the parts, in order. -/
theorem map_partsIn (z : Zone) (node : Node) : (node.partsIn z).map Prod.snd = node.parts := by
  rcases node with f | d | s | s | e | l | f
  · simp [partsIn, parts, Function.comp_def]
  · rcases d with span | ⟨place, keyword, lparen?, specs, rparen?⟩ | d
    · rfl
    · simp [partsIn, parts, Decl.partsIn, Decl.parts, Function.comp_def]
    · simp [partsIn, parts, Decl.partsIn, Decl.parts, Function.comp_def]
  · cases s <;> simp [partsIn, parts, Spec.partsIn, Spec.parts, Function.comp_def]
  · cases s with
    | block b =>
      obtain ⟨lbrace, stmts, rbrace⟩ := b
      simp [partsIn, parts, Stmt.partsIn, Stmt.parts, Function.comp_def]
    | _ => simp [partsIn, parts, Stmt.partsIn, Stmt.parts, Function.comp_def]
  · cases e with
    | call c =>
      obtain ⟨fn, lparen, args, commas, dots?, rparen⟩ := c
      simp [partsIn, parts, Expr.partsIn, Expr.parts, Function.comp_def]
    | funcType t =>
      obtain ⟨func?, params, results?⟩ := t
      simp [partsIn, parts, Expr.partsIn, Expr.parts, Function.comp_def]
    | _ => simp [partsIn, parts, Expr.partsIn, Expr.parts, Function.comp_def]
  · simp [partsIn, parts, Function.comp_def]
  · simp [partsIn, parts, Function.comp_def]

/-- A part has a zone. -/
theorem exists_mem_partsIn {node part : Node} (z : Zone) (h : part ∈ node.parts) :
    ∃ z', (z', part) ∈ node.partsIn z := by
  rw [← map_partsIn z] at h
  obtain ⟨⟨z', _⟩, hpart, rfl⟩ := List.mem_map.1 h
  exact ⟨z', hpart⟩

/-! ## Occurrences -/

/-- In the tree of a node in a zone, another node occurs in another zone. -/
inductive Occurs : (z : Zone) → (root : Node) → (z' : Zone) → (node : Node) → Prop
  | self {z : Zone} {node : Node} : Occurs z node z node
  | part {z z₁ z' : Zone} {root part node : Node} (hpart : (z₁, part) ∈ root.partsIn z)
      (h : Occurs z₁ part z' node) : Occurs z root z' node

variable {z z' : Zone} {root node : Node}

/-- A node that occurs in a tree is one of its nodes. -/
theorem Occurs.mem_preorder (h : Occurs z root z' node) : node ∈ root.preorder := by
  induction h with
  | self => exact mem_preorder_self _
  | @part z _ _ root part _ hpart _ ih =>
    refine preorder_subset_of_mem_parts ?_ ih
    rw [← map_partsIn z]
    exact List.mem_map_of_mem hpart

/-- Every node of a tree occurs in it. -/
theorem exists_occurs_of_mem_preorder (h : node ∈ root.preorder) :
    ∃ z', Occurs z root z' node := by
  induction root using Node.preorder.induct generalizing z with
  | _ root ih =>
  rw [preorder_eq, List.mem_cons, List.mem_flatMap] at h
  rcases h with rfl | ⟨part, hpart, hnode⟩
  · exact ⟨z, .self⟩
  · obtain ⟨z₁, hmem⟩ := exists_mem_partsIn z hpart
    obtain ⟨z', hoccurs⟩ := ih part hpart hnode
    exact ⟨z', .part hmem hoccurs⟩

/-- What is the type of a literal by its zone is the type of a literal. -/
theorem eq_compositeLit_of_mem_partsIn {e : Expr} (h : (z', .expr e) ∈ node.partsIn z)
    (hrole : z'.role = .literalType) : ∃ lbrace elements commas rbrace,
      node = .expr (.compositeLit (some e) lbrace elements commas rbrace) := by
  have hbase := z.base_role_ne
  -- nothing but the type of a literal is given that role
  suffices hall : ∀ p ∈ node.partsIn z, p.2 = .expr e → p.1.role = .literalType →
      ∃ lbrace elements commas rbrace,
        node = .expr (.compositeLit (some e) lbrace elements commas rbrace) from hall _ h rfl hrole
  rcases node with f | d | s | s | e | l | f
  · simp [partsIn, Zone.body]
  · rcases d with span | ⟨place, keyword, lparen?, specs, rparen?⟩ | d
    · exact fun p hp => absurd hp List.not_mem_nil
    · simp [partsIn, Decl.partsIn]
    · simp [partsIn, Decl.partsIn, or_imp, forall_and, Zone.other]
  · cases s <;> simp [partsIn, Spec.partsIn, or_imp, forall_and, Zone.other, Zone.operand]
  · cases s with
    | block b =>
      obtain ⟨lbrace, stmts, rbrace⟩ := b
      simp [partsIn, Stmt.partsIn]
    | _ => simp [partsIn, Stmt.partsIn, or_imp, forall_and, Zone.other, Zone.operand, Zone.header]
  · cases e with
    | call c =>
      obtain ⟨fn, lparen, args, commas, dots?, rparen⟩ := c
      simp [partsIn, Expr.partsIn, hbase, Zone.inside]
    | funcType t =>
      obtain ⟨func?, params, results?⟩ := t
      simp [partsIn, Expr.partsIn, or_imp, forall_and]
    | compositeLit type? lbrace elements commas rbrace =>
      simpa [partsIn, Expr.partsIn, or_imp, forall_and, Zone.inside] using
        fun x htype hx => hx ▸ htype
    | _ => simp [partsIn, Expr.partsIn, or_imp, forall_and, hbase, Zone.inside, Zone.other]
  · simp [partsIn]
  · simp [partsIn, or_imp, forall_and, Zone.other]

/-- A node that occurs in a tree is its root, or a part of one that occurs there. -/
theorem Occurs.eq_or_exists_parent (h : Occurs z root z' node) :
    (z' = z ∧ node = root) ∨
      ∃ z₁ parent, Occurs z root z₁ parent ∧ (z', node) ∈ parent.partsIn z₁ := by
  induction h with
  | self => exact .inl ⟨rfl, rfl⟩
  | @part z z₁ z' root part node hpart h ih =>
    rcases ih with ⟨rfl, rfl⟩ | ⟨z₂, parent, hparent, hmem⟩
    · exact .inr ⟨z, root, .self, hpart⟩
    · exact .inr ⟨z₂, parent, .part hpart hparent, hmem⟩

/-- An expression that occurs as the type of a literal is the type of one that occurs there too. -/
theorem Occurs.exists_compositeLit {e : Expr} (h : Occurs z root z' (.expr e))
    (hz : z.role ≠ .literalType) (hrole : z'.role = .literalType) :
    ∃ z₁ lbrace elements commas rbrace, Occurs z root z₁
      (.expr (.compositeLit (some e) lbrace elements commas rbrace)) := by
  rcases h.eq_or_exists_parent with ⟨rfl, -⟩ | ⟨z₁, parent, hparent, hmem⟩
  · exact absurd hrole hz
  · obtain ⟨lbrace, elements, commas, rbrace, rfl⟩ := eq_compositeLit_of_mem_partsIn hmem hrole
    exact ⟨z₁, lbrace, elements, commas, rbrace, hparent⟩

end Node

end GoTrace
