import GoTrace.Proofs.Layout.Nodes

/-!
# Levels of nesting

A chain such as `a + b + c` or `f()()()` is read by a loop: each turn puts a construct around what
is read so far, and the text nests no deeper for it, although the tree does. The levels of a
construct count its nesting without such turns: a link of a chain stands on the level of what it is
put around, and its other parts stand one level below.

`Layout.height_le` gives the height back: it is at most the levels and the links together.
-/

namespace GoTrace

/-- Whether a construct of this kind is a link of a chain: it is put around its first part when that
has been read. -/
def NodeKind.isLink : NodeKind → Bool
  | .binaryExpr | .selectorExpr | .indexExpr | .sliceExpr | .typeAssertExpr | .callExpr
  | .compositeLit => true
  | _ => false

mutual

/-- The number of levels in a construct, its own included. -/
def Layout.levels : Layout → Nat
  | .node kind _ rows => max 1 (Row.levelsBelow kind.isLink rows)
  | .placeholder _ _ => 1

/-- The number of levels in a row. -/
def Row.levels : Row → Nat
  | .child none => 0
  | .child (some layout) => layout.levels
  | .list items _ => Layout.allLevels items
  | .token _ _ | .lexeme _ | .checkpoint _ _ => 0

/-- The number of levels in the rows of a construct, its own included; `link` says whether the first
row stands on the level of the construct. -/
def Row.levelsBelow : (link : Bool) → List Row → Nat
  | _, [] => 0
  | link, row :: rows => max (row.levels + if link then 0 else 1) (Row.levelsBelow false rows)

/-- The number of levels in some constructs. -/
def Layout.allLevels : List Layout → Nat
  | [] => 0
  | layout :: layouts => max layout.levels (Layout.allLevels layouts)

end

/-- The number of links in a construct. -/
def Layout.links (l : Layout) : Nat := l.preorder.countP (·.kind.isLink)

/-! ## Levels of parts -/

section

variable {n : Nat}

/-- Constructs have at most `n` levels iff each has. -/
private theorem allLevels_le_iff {ls : List Layout} :
    Layout.allLevels ls ≤ n ↔ ∀ l ∈ ls, l.levels ≤ n := by
  induction ls with
  | nil => simp [Layout.allLevels]
  | cons l ls ih => rw [Layout.allLevels, Nat.max_le, ih, List.forall_mem_cons]

/-- A row has at most `n` levels iff each of its constructs has. -/
private theorem levels_le_iff {row : Row} : row.levels ≤ n ↔ ∀ l ∈ row.parts, l.levels ≤ n := by
  cases row with
  | child layout? => cases layout? <;> simp [Row.levels, Row.parts]
  | list items separators => exact allLevels_le_iff
  | token _ _ => simp [Row.levels, Row.parts]
  | lexeme _ => simp [Row.levels, Row.parts]
  | checkpoint _ _ => simp [Row.levels, Row.parts]

/-- Rows below a construct of `n + 1` levels have at most `n`. -/
private theorem levelsBelow_le {rows : List Row}
    (h : ∀ l ∈ rows.flatMap Row.parts, l.levels ≤ n) : Row.levelsBelow false rows ≤ n + 1 := by
  induction rows with
  | nil => exact Nat.zero_le _
  | cons row rows ih =>
    rw [List.flatMap_cons, List.forall_mem_append] at h
    rw [Row.levelsBelow, Nat.max_le]
    exact ⟨Nat.succ_le_succ (levels_le_iff.2 h.1), ih h.2⟩

namespace Layout

/-- **A link adds no level to its first part**, and one to the others. -/
theorem levels_link_le {kind : NodeKind} {span : Span} {first? : Option Layout} {rows : List Row}
    (hlink : kind.isLink) (hfirst : ∀ l ∈ first?, l.levels ≤ n + 1)
    (h : ∀ l ∈ rows.flatMap Row.parts, l.levels ≤ n) :
    (node kind span (.child first? :: rows)).levels ≤ n + 1 := by
  have hchild : (Row.child first?).levels ≤ n + 1 :=
    levels_le_iff.2 fun l hl => hfirst l (Option.mem_toList.1 hl)
  have hrows := levelsBelow_le h
  rw [levels, Row.levelsBelow, if_pos hlink]
  omega

/-- A construct adds at most one level to its parts. -/
theorem levels_le {l : Layout} (h : ∀ m ∈ l.parts, m.levels ≤ n) : l.levels ≤ n + 1 := by
  cases l with
  | placeholder kind span => exact Nat.le_add_left 1 n
  | node kind span rows =>
    cases rows with
    | nil => exact Nat.le_add_left 1 n
    | cons row rows =>
      rw [parts, List.flatMap_cons, List.forall_mem_append] at h
      have hrow := levels_le_iff.2 h.1
      have hrows := levelsBelow_le h.2
      rw [levels, Row.levelsBelow]
      split <;> omega

/-! ## Levels and height -/

private theorem heights_le {ls : List Layout} (h : ∀ l ∈ ls, l.height ≤ n) : heights ls ≤ n := by
  induction ls with
  | nil => exact Nat.zero_le n
  | cons l ls ih =>
    rw [List.forall_mem_cons] at h
    rw [heights, Nat.max_le]
    exact ⟨h.1, ih h.2⟩

/-- A construct is at most one higher than its parts. -/
theorem height_le_of_parts {l : Layout} (h : ∀ m ∈ l.parts, m.height ≤ n) : l.height ≤ n + 1 := by
  cases l with
  | placeholder kind span => exact Nat.le_add_left 1 n
  | node kind span rows =>
    refine Nat.succ_le_succ ?_
    induction rows with
    | nil => exact Nat.zero_le n
    | cons row rows ih =>
      rw [parts, List.flatMap_cons, List.forall_mem_append] at h
      rw [Row.heights, Nat.max_le]
      refine ⟨?_, ih h.2⟩
      cases row with
      | child layout? =>
        cases layout? with
        | none => exact Nat.zero_le n
        | some layout => exact h.1 layout (List.mem_singleton_self layout)
      | list items separators => exact heights_le h.1
      | token _ _ => exact Nat.zero_le n
      | lexeme _ => exact Nat.zero_le n
      | checkpoint _ _ => exact Nat.zero_le n

/-- A construct has a level of its own. -/
private theorem levels_pos (l : Layout) : 0 < l.levels := by
  cases l with
  | placeholder kind span => exact Nat.one_pos
  | node kind span rows => exact Nat.le_max_left ..

private theorem levels_of_mem_levelsBelow {l : Layout} {link : Bool} {rows : List Row}
    (h : l ∈ rows.flatMap Row.parts) :
    l.levels + (if link then 0 else 1) ≤ Row.levelsBelow link rows := by
  induction rows generalizing link with
  | nil => cases h
  | cons row rows ih =>
    rw [Row.levelsBelow]
    rcases List.mem_append.1 (List.flatMap_cons ▸ h) with h | h
    · have hrow := levels_le_iff.1 (Nat.le_refl row.levels) l h
      omega
    · have hrows : l.levels + (if false then 0 else 1) ≤ Row.levelsBelow false rows := ih h
      rw [if_neg Bool.false_ne_true] at hrows
      split <;> omega

/-- A part has no more levels than the construct, and fewer if the construct is no link. -/
private theorem levels_of_mem_parts {l m : Layout} (h : m ∈ l.parts) :
    m.levels + (if l.kind.isLink then 0 else 1) ≤ l.levels := by
  cases l with
  | placeholder kind span => cases h
  | node kind span rows =>
    exact Nat.le_trans (levels_of_mem_levelsBelow h) (Nat.le_max_right ..)

/-- A part has no more links than the construct, and fewer if the construct is one. -/
private theorem links_of_mem_parts {l m : Layout} (h : m ∈ l.parts) :
    m.links + (if l.kind.isLink then 1 else 0) ≤ l.links := by
  have hsub : m.preorder.Sublist (l.parts.flatMap preorder) := by
    rw [List.flatMap_def]
    exact List.sublist_flatten_of_mem (List.mem_map_of_mem h)
  rw [links, links, preorder_eq l, List.countP_cons]
  exact Nat.add_le_add_right hsub.countP_le _

/-- **A construct is no higher than its levels and its links together.** -/
theorem height_le (l : Layout) : l.height ≤ l.levels + l.links := by
  induction l using inductionOnParts with
  | _ l ih =>
  have hparts : ∀ m ∈ l.parts, m.height + 1 ≤ l.levels + l.links := by
    intro m hm
    have hlevels := levels_of_mem_parts hm
    have hlinks := links_of_mem_parts hm
    have hheight := ih m hm
    by_cases hlink : l.kind.isLink
    · rw [if_pos hlink] at hlevels hlinks
      omega
    · rw [if_neg hlink] at hlevels hlinks
      omega
  have hpos := levels_pos l
  have hle := height_le_of_parts fun m hm => Nat.le_sub_one_of_lt (hparts m hm)
  omega

end Layout

end

end GoTrace
