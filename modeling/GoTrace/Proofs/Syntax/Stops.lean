import Mathlib.Data.List.Basic
import GoTrace.Proofs.Syntax.Formed

/-!
# Open ends in a tree

An open end is handed on from the implicit empty statement to every node that ends with it, up to
the block around it: `Node.exists_tail` is the step from a node to its parts, and
`Node.block_of_openEnd?` says that the open ends of a tree are at the closing braces of its blocks.
All other nodes have something of their own at their end.
-/

namespace GoTrace

/-- The place of the implicit empty statement that a node ends with, if it ends so. -/
def Node.openEnd? : Node → Option Offset
  | .stmt s => s.openEnd?
  | .file _ | .decl _ | .spec _ | .expr _ | .fieldList _ | .field _ => none

/-- Some statements end as the last of them does. -/
theorem Stmt.lastOpenEnd?_eq (stmts : List Stmt) :
    lastOpenEnd? stmts = stmts.getLast?.bind openEnd? := by
  induction stmts with
  | nil => rfl
  | cons stmt stmts ih =>
    rw [lastOpenEnd?, ih]
    cases stmts with
    | nil => rfl
    | cons other stmts =>
      rw [if_neg (by simp), List.getLast?_cons_cons]

/-- Statements of which the last alone may have an open end: each with another behind it has none.
-/
theorem Stmt.OpenLast.pairwise {stmts : List Stmt} (h : OpenLast stmts) :
    stmts.Pairwise fun stmt _ => stmt.openEnd? = none := by
  induction stmts with
  | nil => exact .nil
  | cons stmt stmts ih =>
    cases stmts with
    | nil => exact List.pairwise_singleton _ _
    | cons other stmts =>
      rw [OpenLast, List.dropLast_cons_cons, List.forall_mem_cons] at h
      exact .cons (fun _ _ => h.1) (ih h.2)

/-- Statements of which the last alone may have an open end have the one that any of them has. -/
theorem Stmt.OpenLast.lastOpenEnd?_of_mem {stmts : List Stmt} {stmt : Stmt} {place : Offset}
    (h : OpenLast stmts) (hstmt : stmt ∈ stmts) (hopen : stmt.openEnd? = some place) :
    lastOpenEnd? stmts = some place := by
  rcases List.eq_nil_or_concat' stmts with rfl | ⟨others, last, rfl⟩
  · cases hstmt
  · rw [OpenLast, List.dropLast_concat] at h
    rcases List.mem_append.1 hstmt with hstmt | hstmt
    · rw [h stmt hstmt] at hopen
      cases hopen
    · obtain rfl := List.mem_singleton.1 hstmt
      rw [lastOpenEnd?_eq, List.getLast?_concat]
      exact hopen

namespace Node

variable {node : Node} {place : Offset}

/-- A node with an open end is the implicit empty statement there, or its last part has the open end
and it stops with that. -/
theorem last_of_openEnd? (h : node.openEnd? = some place) :
    node = .stmt (.empty place true) ∨ ∃ part, node.parts.getLast? = some part ∧
      part.openEnd? = some place ∧ node.layout.stop = part.layout.stop := by
  have hlast : ∀ {body : List Stmt} {colon : Offset}, Stmt.lastOpenEnd? body = some place →
      ∃ stmt, body.getLast? = some stmt ∧ stmt.openEnd? = some place ∧
        stopOfLast (Stmt.layouts body) (colon.advance 1) = stmt.layout.stop := by
    intro body colon hopen
    rw [Stmt.lastOpenEnd?_eq, Option.bind_eq_some_iff] at hopen
    obtain ⟨stmt, hstmt, hopen⟩ := hopen
    refine ⟨stmt, hstmt, hopen, ?_⟩
    rw [Stmt.layouts_eq_map, stopOfLast, List.getLast?_map, hstmt]
    rfl
  cases node with
  | stmt s =>
    cases s with
    | empty semicolon implicit =>
      cases implicit with
      | false => cases h
      | true =>
        obtain rfl := Option.some.inj h
        exact .inl rfl
    | labeled label colon stmt => exact .inr ⟨.stmt stmt, rfl, h, rfl⟩
    | caseClause _ _ exprs _ colon body =>
      obtain ⟨stmt, hstmt, hopen, hstop⟩ := hlast h
      exact .inr ⟨.stmt stmt, by simp [parts, Stmt.parts, hstmt], hopen, hstop⟩
    | commClause _ _ comm? colon body =>
      obtain ⟨stmt, hstmt, hopen, hstop⟩ := hlast h
      exact .inr ⟨.stmt stmt, by simp [parts, Stmt.parts, hstmt], hopen, hstop⟩
    | _ => cases h
  | _ => cases h

/-- A node with an open end stops there. -/
theorem stop_of_openEnd? (h : node.openEnd? = some place) : node.layout.stop = place := by
  induction node using Node.preorder.induct with
  | _ node ih =>
  rcases last_of_openEnd? h with rfl | ⟨part, hlast, hopen, hstop⟩
  · exact Offset.ext (Nat.min_eq_left place.le_max)
  · rw [hstop]
    exact ih part (List.mem_of_getLast? hlast) hopen

/-- The last node in a node is the last one in its last part. -/
theorem getLast?_preorder {part : Node} (h : node.parts.getLast? = some part) :
    node.preorder.getLast? = part.preorder.getLast? := by
  obtain ⟨others, hothers⟩ := List.getLast?_eq_some_iff.1 h
  rw [preorder_eq node, hothers, List.flatMap_append, List.flatMap_singleton, ← List.cons_append,
    List.getLast?_append, preorder_eq part, List.getLast?_cons, Option.some_or]

/-- The last node in a node with an open end is the implicit empty statement there. -/
theorem getLast?_preorder_of_openEnd? (h : node.openEnd? = some place) :
    node.preorder.getLast? = some (.stmt (.empty place true)) := by
  induction node using Node.preorder.induct with
  | _ node ih =>
  rcases last_of_openEnd? h with rfl | ⟨part, hlast, hopen, -⟩
  · rw [preorder_eq]
    rfl
  · rw [getLast?_preorder hlast]
    exact ih part (List.mem_of_getLast? hlast) hopen

end Node

/-- A simple statement has no open end. -/
theorem Stmt.openEnd?_of_isSimple {stmt : Stmt} (h : stmt.isSimple) : stmt.openEnd? = none := by
  cases stmt with
  | empty | labeled | caseClause | commClause => cases h
  | _ => rfl

theorem Stmt.openEnd?_of_isElse {stmt : Stmt} (h : stmt.isElse) : stmt.openEnd? = none := by
  cases stmt with
  | empty | labeled | caseClause | commClause => cases h
  | _ => rfl

namespace Node

variable {node : Node} {place : Offset}

/-- The parts of an expression have no open ends. -/
private theorem closed_of_mem_expr {e : Expr} : ∀ part ∈ e.parts, part.openEnd? = none := by
  cases e with
  | call call =>
    cases call
    simp [Expr.parts, openEnd?, or_imp, forall_and]
  | funcType type =>
    cases type
    simp [Expr.parts, openEnd?, or_imp, forall_and]
  | _ => simp [Expr.parts, openEnd?, Stmt.openEnd?, or_imp, forall_and]

/-- The parts of a declaration have no open ends. -/
private theorem closed_of_mem_decl {d : Decl} : ∀ part ∈ d.parts, part.openEnd? = none := by
  cases d with
  | bad span => nofun
  | gen decl =>
    cases decl
    simp [Decl.parts, openEnd?]
  | func decl =>
    cases decl
    simp [Decl.parts, openEnd?, Stmt.openEnd?, or_imp, forall_and]

/-- The statements in the header of a statement have no open ends. -/
private theorem closed_of_isSimple {s? : Option Stmt} (h : ∀ s ∈ s?, s.isSimple) :
    ∀ s ∈ s?, s.openEnd? = none := fun s hs => Stmt.openEnd?_of_isSimple (h s hs)

/-- The parts of a node: those in front have no open end, and behind them are statements of which
the last may have one. Then so has the node, or it is a block that closes there. -/
def HasTail (node : Node) (front : List Node) (stmts : List Stmt) : Prop :=
  node.parts = front ++ stmts.map .stmt ∧ (∀ part ∈ front, part.openEnd? = none) ∧
    Stmt.OpenLast stmts ∧ ∀ place ∈ Stmt.lastOpenEnd? stmts,
      node.openEnd? = some place ∨ ∃ b, node = .stmt (.block b) ∧ b.rbrace = place

/-- A node without open ends in it. -/
private theorem exists_tail_of_closed (h : ∀ part ∈ node.parts, part.openEnd? = none) :
    ∃ front stmts, node.HasTail front stmts :=
  ⟨node.parts, [], (List.append_nil _).symm, h, nofun, nofun⟩

private theorem exists_tail_stmt {s : Stmt} (h : s.Formed) :
    ∃ front stmts, (Node.stmt s).HasTail front stmts := by
  cases s with
  | bad span => cases h
  | labeled label colon stmt =>
    exact ⟨[.expr (.ident label)], [stmt], rfl, List.forall_mem_singleton.2 rfl,
      List.forall_mem_nil _, fun place hplace => .inl hplace⟩
  | block b =>
    obtain ⟨lbrace, stmts, rbrace⟩ := b
    exact ⟨[], stmts, rfl, List.forall_mem_nil _, h.1, fun place hplace =>
      .inr ⟨_, rfl, (h.2 place hplace).symm⟩⟩
  | caseClause _ _ exprs _ _ body =>
    exact ⟨exprs.map .expr, body, rfl, List.forall_mem_map.2 fun _ _ => rfl, h,
      fun place hplace => .inl hplace⟩
  | commClause _ _ comm? _ body =>
    refine ⟨comm?.toList.map .stmt, body, by simp [parts, Stmt.parts], ?_, h.2,
      fun place hplace => .inl hplace⟩
    simpa [openEnd?] using closed_of_isSimple h.1
  | ifStmt _ init? _ cond body _ else? =>
    obtain ⟨-, -, hinit, helse⟩ := h
    have helse : ∀ s ∈ else?, s.openEnd? = none := fun s hs =>
      Stmt.openEnd?_of_isElse (helse s hs)
    apply exists_tail_of_closed
    simpa [parts, Stmt.parts, openEnd?, Stmt.openEnd?, or_imp, forall_and] using
      ⟨closed_of_isSimple hinit, helse⟩
  | forStmt _ init? _ cond? _ post? body =>
    obtain ⟨-, -, hinit, hpost⟩ := h
    apply exists_tail_of_closed
    simpa [parts, Stmt.parts, openEnd?, Stmt.openEnd?, or_imp, forall_and] using
      ⟨closed_of_isSimple hinit, closed_of_isSimple hpost⟩
  | switchStmt _ init? _ tag? body =>
    apply exists_tail_of_closed
    simpa [parts, Stmt.parts, openEnd?, Stmt.openEnd?, or_imp, forall_and] using
      closed_of_isSimple h.2
  | typeSwitch _ init? _ guard body =>
    obtain ⟨-, hinit, hguard⟩ := h
    apply exists_tail_of_closed
    simpa [parts, Stmt.parts, openEnd?, Stmt.openEnd?, or_imp, forall_and] using
      ⟨closed_of_isSimple hinit, Stmt.openEnd?_of_isSimple hguard⟩
  | _ =>
    apply exists_tail_of_closed
    simp [parts, Stmt.parts, openEnd?, Stmt.openEnd?, or_imp, forall_and]

/-- Only at its end may a well-formed node have parts with open ends. -/
theorem exists_tail (h : node.Formed) : ∃ front stmts, node.HasTail front stmts := by
  cases node with
  | file f => exact exists_tail_of_closed (by simp [parts, openEnd?])
  | decl d => exact exists_tail_of_closed closed_of_mem_decl
  | spec s =>
    apply exists_tail_of_closed
    cases s <;> simp [parts, Spec.parts, openEnd?, or_imp, forall_and]
  | stmt s => exact exists_tail_stmt h
  | expr e => exact exists_tail_of_closed closed_of_mem_expr
  | fieldList l => exact exists_tail_of_closed (by simp [parts, openEnd?])
  | field f => exact exists_tail_of_closed (by simp [parts, openEnd?, or_imp, forall_and])

/-- A part with another behind it has no open end. -/
theorem pairwise_closed (h : node.Formed) :
    node.parts.Pairwise fun part _ => part.openEnd? = none := by
  obtain ⟨front, stmts, hparts, hfront, hlast, -⟩ := exists_tail h
  rw [hparts, List.pairwise_append, List.pairwise_map]
  refine ⟨?_, hlast.pairwise, fun part hpart _ _ => hfront part hpart⟩
  exact List.pairwise_of_forall_mem_list fun part hpart _ _ => hfront part hpart

/-- An open end of a part is one of the node, or it is at the closing brace of the node. -/
theorem openEnd?_of_mem_parts {part : Node} (h : node.Formed) (hpart : part ∈ node.parts)
    (hopen : part.openEnd? = some place) :
    node.openEnd? = some place ∨ ∃ b, node = .stmt (.block b) ∧ b.rbrace = place := by
  obtain ⟨front, stmts, hparts, hfront, hlast, htail⟩ := exists_tail h
  rw [hparts, List.mem_append, List.mem_map] at hpart
  rcases hpart with hpart | ⟨stmt, hstmt, rfl⟩
  · rw [hfront part hpart] at hopen
    cases hopen
  · exact htail place (hlast.lastOpenEnd?_of_mem hstmt hopen)

/-- **An open end in a tree is at the closing brace of a block around it**, or it is one of the
whole tree. -/
theorem block_of_openEnd? {root : Node} (h : root.AllFormed) (hnode : node ∈ root.preorder)
    (hopen : node.openEnd? = some place) :
    root.openEnd? = some place ∨
      ∃ b, .stmt (.block b) ∈ root.preorder ∧ node ∈ (Node.stmt (.block b)).preorder ∧
        b.rbrace = place := by
  induction root using Node.preorder.induct with
  | _ root ih =>
  rw [preorder_eq, List.mem_cons, List.mem_flatMap] at hnode
  rcases hnode with rfl | ⟨part, hpart, hin⟩
  · exact .inl hopen
  · have hsubset := preorder_subset_of_mem_parts hpart
    rcases ih part hpart (h.of_mem_parts hpart) hin with hpartOpen | ⟨b, hb, hblock⟩
    · refine (openEnd?_of_mem_parts h.formed hpart hpartOpen).imp_right ?_
      rintro ⟨b, rfl, hplace⟩
      exact ⟨b, mem_preorder_self _, hsubset hin, hplace⟩
    · exact .inr ⟨b, hsubset hb, hblock⟩

/-! ## Nodes with something of their own -/

private theorem exists_head_expr {e : Expr} (h : e.Formed) :
    ∃ rows, e.layout.rows? = some rows ∧ ∃ row ∈ rows, row.heads ≠ [] := by
  cases e with
  | bad span => cases h
  | call call =>
    cases call
    simp [Expr.layout, Call.layout, Layout.rows?, Row.heads]
  | funcType type =>
    cases type
    simp [Expr.layout, FuncType.layout, Layout.rows?, Row.heads]
  | _ => simp [Expr.layout, Ident.layout, BasicLit.layout, Layout.rows?, Row.heads]

private theorem exists_head_stmt {s : Stmt} (h : s.Formed) (hclosed : s.openEnd? = none) :
    ∃ rows, s.layout.rows? = some rows ∧ ∃ row ∈ rows, row.heads ≠ [] := by
  cases s with
  | bad span => cases h
  | empty semicolon implicit =>
    cases implicit with
    | false => simp [Stmt.layout, Layout.rows?, Row.heads]
    | true => cases hclosed
  | block b =>
    cases b
    simp [Stmt.layout, Block.layout, Layout.rows?, Row.heads]
  | _ => simp [Stmt.layout, Layout.rows?, Row.heads]

private theorem exists_head_decl {d : Decl} (h : d.Formed) :
    ∃ rows, d.layout.rows? = some rows ∧ ∃ row ∈ rows, row.heads ≠ [] := by
  cases d with
  | bad span => cases h
  | gen decl =>
    cases decl
    simp [Decl.layout, GenDecl.layout, Layout.rows?, Row.heads]
  | func decl => simp [Decl.layout, FuncDecl.layout, Layout.rows?, Row.heads]

private theorem exists_head_spec {s : Spec} (h : s.Formed) :
    ∃ rows, s.layout.rows? = some rows ∧ ∃ row ∈ rows, row.heads ≠ [] := by
  cases s with
  | values names _ _ _ _ _ =>
    have hnames : names ≠ [] := h
    simp [Spec.layout, Layout.rows?, Row.heads, hnames]
  | _ => simp [Spec.layout, Layout.rows?, Row.heads]

/-- A node without an open end has a row with a token or a part. -/
theorem exists_head (h : node.Formed) (hclosed : node.openEnd? = none) :
    ∃ rows, node.layout.rows? = some rows ∧ ∃ row ∈ rows, row.heads ≠ [] := by
  cases node with
  | file f => simp [layout, File.layout, Layout.rows?, Row.heads]
  | decl d => exact exists_head_decl h
  | spec s => exact exists_head_spec h
  | stmt s => exact exists_head_stmt h hclosed
  | expr e => exact exists_head_expr h
  | fieldList l =>
    obtain ⟨delimiter, opening?, fields, separators, closing?⟩ := l
    cases opening? with
    | none =>
      obtain ⟨field, rfl, -⟩ := h.2 rfl
      simp [layout, FieldList.layout, Layout.rows?, Row.heads]
    | some opening => simp [layout, FieldList.layout, Layout.rows?, Row.heads]
  | field f =>
    cases f
    simp [layout, Field.layout, Layout.rows?, Row.heads]

end Node

end GoTrace
