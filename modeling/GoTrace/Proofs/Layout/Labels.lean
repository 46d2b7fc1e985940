import GoTrace.Proofs.Layout.Nodes

/-!
# The names of checkpoints

A trace writes the name of a checkpoint without quotes, where it writes "Start" or "End" for the
ends of a construct. The name of every checkpoint is a word that is neither of these
(`Node.isLabel_of_mem_events`), as the name of every construct is a word.
-/

namespace GoTrace

/-- A word is made of letters. -/
def IsWord (s : String) : Prop := s ≠ "" ∧ ∀ c ∈ s.toList, c.isAlpha

-- the characters of the word are looked at, and not all characters there are
instance (s : String) : Decidable (IsWord s) :=
  have := List.decidableBAll (fun c : Char => c.isAlpha = true) s.toList
  inferInstanceAs (Decidable (_ ∧ _))

/-- The name of a checkpoint is a word that does not stand for the start or end of a construct. -/
def IsLabel (s : String) : Prop := IsWord s ∧ s ≠ "Start" ∧ s ≠ "End"

instance (s : String) : Decidable (IsLabel s) := inferInstanceAs (Decidable (_ ∧ _))

theorem NodeKind.isWord_name (kind : NodeKind) : IsWord kind.name := by
  cases kind <;> decide

/-- No construct has the name of a line break or a blank line. -/
theorem NodeKind.name_ne (kind : NodeKind) : kind.name ≠ "New" ∧ kind.name ≠ "Empty" := by
  cases kind <;> decide

/-- A row for a checkpoint has the name of one. -/
def Row.IsLabeled : Row → Prop
  | .checkpoint label _ => IsLabel label
  | .token _ _ | .lexeme _ | .child _ | .list _ _ => True

/-- The rows of a construct for checkpoints have the names of checkpoints. -/
def Layout.IsLabeled : Layout → Prop
  | .node _ _ rows => ∀ row ∈ rows, row.IsLabeled
  | .placeholder _ _ => True

namespace Node

section Labels

attribute [local simp] Layout.IsLabeled Row.IsLabeled layout

private theorem isLabeled_decl (d : Decl) : d.layout.IsLabeled := by
  cases d with
  | bad span => trivial
  | gen decl =>
    cases decl
    simp +decide [Decl.layout, GenDecl.layout]
  | func decl => simp +decide [Decl.layout, FuncDecl.layout]

private theorem isLabeled_stmt (s : Stmt) : s.layout.IsLabeled := by
  cases s with
  | block block =>
    cases block
    simp +decide [Stmt.layout, Block.layout]
  | _ => simp +decide [Stmt.layout]

private theorem isLabeled_expr (e : Expr) : e.layout.IsLabeled := by
  cases e with
  | call call =>
    cases call
    simp +decide [Expr.layout, Call.layout]
  | funcType type =>
    cases type
    simp +decide [Expr.layout, FuncType.layout]
  | _ => simp +decide [Expr.layout, Ident.layout, BasicLit.layout]

/-- The checkpoints of a node have the names of checkpoints. -/
theorem isLabeled_layout (node : Node) : node.layout.IsLabeled := by
  cases node with
  | file f => simp +decide [File.layout]
  | decl d => exact isLabeled_decl d
  | spec s => cases s <;> simp +decide [Spec.layout]
  | stmt s => exact isLabeled_stmt s
  | expr e => exact isLabeled_expr e
  | fieldList l =>
    cases l
    simp +decide [FieldList.layout]
  | field f =>
    cases f
    simp +decide [Field.layout]

end Labels

/-- **Every checkpoint among the events of a tree has the name of a checkpoint.** -/
theorem isLabel_of_mem_events (node : Node) {depth : Nat} {owner : NodeKind} {label : String}
    (h : .checkpoint owner label ∈ node.layout.events depth) : IsLabel label := by
  induction node using preorder.induct generalizing depth with
  | _ node ih =>
  cases hlayout : node.layout with
  | placeholder kind span =>
    rw [hlayout] at h
    cases List.mem_singleton.1 h
  | node kind span rows =>
    rw [hlayout, Layout.events, List.mem_append, List.mem_cons, List.mem_singleton] at h
    rcases h with (h | h) | h
    · cases h
    · rcases Row.of_mem_allEvents h with ⟨l, hl, h⟩ | ⟨_, _, h⟩ | ⟨_, hrow, h⟩
      · rw [parts_rows hlayout] at hl
        obtain ⟨part, hpart, rfl⟩ := List.mem_map.1 hl
        exact ih part hpart h
      · cases h
      · obtain ⟨-, rfl⟩ := Event.checkpoint.inj h
        have hlabeled := node.isLabeled_layout
        rw [hlayout] at hlabeled
        exact hlabeled _ hrow
    · cases h

end Node

end GoTrace
