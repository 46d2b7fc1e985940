import Mathlib.Order.Bounds.Defs
import GoTrace.Proofs.Trace.Nesting
import GoTrace.Proofs.Trace.Outline

/-!
# The bound on nesting

The events of a file enter its nodes in their order and at their depths (`Node.entered_events`), so
the bound on nesting cuts a trace off at the first node that is one deeper than the bound.
`File.nested` says how deep each node is without an event at hand, and the height of a layout is the
depth of the deepest (`Node.isGreatest_height`). Under a bound of at least that height a file has
one and the same trace, and under a lower one it fails at the first node that is one too deep
(`trace_maxDepth`).
-/

namespace GoTrace

/-- A construct nests at least itself. -/
theorem Layout.height_pos (l : Layout) : 0 < l.height := by
  cases l with
  | node kind span rows => exact Nat.succ_pos _
  | placeholder kind span => exact Nat.one_pos

/-! ## Nodes and their depths -/

/-- A part of a node is lower than the node. -/
theorem Node.height_lt_of_mem_parts {node part : Node} (h : part ∈ node.parts) :
    part.layout.height < node.layout.height := by
  refine Layout.height_lt_of_mem_parts ?_
  rw [parts_layout]
  exact List.mem_map_of_mem h

/-- A node and every node in it, each in front of its parts and with its depth: the number of nodes
around it, itself included, if there are `depth` around them all. -/
def Node.nested (depth : Nat) (node : Node) : List (Nat × Node) :=
  (depth + 1, node) :: node.parts.attach.flatMap fun ⟨part, _⟩ => part.nested (depth + 1)
termination_by node.layout.height
decreasing_by exact height_lt_of_mem_parts ‹_›

/-- Every node of a file with its depth, each in front of its parts. -/
def File.nested (file : File) : List (Nat × Node) := (Node.file file).nested 0

namespace Node

theorem nested_eq (depth : Nat) (node : Node) :
    node.nested depth = (depth + 1, node) :: node.parts.flatMap (nested (depth + 1)) := by
  rw [nested]
  simp

theorem mem_nested {depth n : Nat} {node m : Node} :
    (n, m) ∈ node.nested depth ↔
      n = depth + 1 ∧ m = node ∨ ∃ part ∈ node.parts, (n, m) ∈ part.nested (depth + 1) := by
  rw [nested_eq, List.mem_cons, List.mem_flatMap, Prod.mk.injEq]

/-- The nodes with their depths are the nodes. -/
theorem map_snd_nested (depth : Nat) (node : Node) :
    (node.nested depth).map Prod.snd = node.preorder := by
  induction node using preorder.induct generalizing depth with
  | _ node ih =>
  rw [nested_eq, preorder_eq, List.map_cons, List.map_flatMap,
    List.flatMap_congr fun part hpart => ih part hpart (depth + 1)]

/-- No node in a node is deeper than the node is high. -/
theorem depth_le_of_mem_nested {depth n : Nat} {node m : Node} (h : (n, m) ∈ node.nested depth) :
    n ≤ depth + node.layout.height := by
  induction node using preorder.induct generalizing depth with
  | _ node ih =>
  rcases mem_nested.1 h with ⟨rfl, -⟩ | ⟨part, hpart, h⟩
  · exact Nat.add_le_add_left node.layout.height_pos depth
  · have hle := ih part hpart h
    have hlt := height_lt_of_mem_parts hpart
    omega

/-- Some node in a node is as deep as the node is high. -/
theorem exists_mem_nested (depth : Nat) (node : Node) :
    ∃ m, (depth + node.layout.height, m) ∈ node.nested depth := by
  induction node using preorder.induct generalizing depth with
  | _ node ih =>
  by_cases hpart : ∃ part ∈ node.parts, part.layout.height + 1 = node.layout.height
  · -- the deepest node in the highest part
    obtain ⟨part, hpart, hheight⟩ := hpart
    obtain ⟨m, hm⟩ := ih part hpart (depth + 1)
    refine ⟨m, mem_nested.2 (.inr ⟨part, hpart, ?_⟩)⟩
    rwa [← hheight, Nat.add_comm part.layout.height, ← Nat.add_assoc]
  · -- no part is just one lower, so there is none
    have hparts : ∀ l ∈ node.layout.parts, l.height ≤ node.layout.height - 2 := by
      rw [parts_layout, List.forall_mem_map]
      intro part hmem
      have hlt := height_lt_of_mem_parts hmem
      have hne : part.layout.height + 1 ≠ node.layout.height := fun heq => hpart ⟨part, hmem, heq⟩
      omega
    have hle := Layout.height_le_of_parts hparts
    have hpos := node.layout.height_pos
    exact ⟨node, mem_nested.2 (.inl ⟨by omega, rfl⟩)⟩

/-- **The height of a layout is the depth of the deepest node.** -/
theorem isGreatest_height (depth : Nat) (node : Node) :
    IsGreatest {n | ∃ m, (n, m) ∈ node.nested depth} (depth + node.layout.height) :=
  ⟨exists_mem_nested depth node, fun _ ⟨_, h⟩ => depth_le_of_mem_nested h⟩

private theorem findSome?_congr {α β : Type} {f g : α → Option β} {l : List α}
    (h : ∀ a ∈ l, f a = g a) : l.findSome? f = l.findSome? g := by
  rw [← Function.id_comp f, ← Function.id_comp g, ← List.findSome?_map, ← List.findSome?_map,
    List.map_congr_left h]

/-- The first node that is deeper than a bound is one deeper. -/
theorem find?_nested {depth limit : Nat} (h : depth ≤ limit) (node : Node) :
    (node.nested depth).find? (limit < ·.1) = (node.nested depth).find? (·.1 == limit + 1) := by
  induction node using preorder.induct generalizing depth with
  | _ node ih =>
  rw [nested_eq]
  by_cases heq : depth = limit
  · -- the node itself is the first one
    subst heq
    simp
  · have hlt : depth + 1 ≤ limit := by omega
    rw [List.find?_cons_of_neg (by simpa using hlt),
      List.find?_cons_of_neg (by simpa using heq), List.find?_flatMap, List.find?_flatMap]
    exact findSome?_congr fun part hpart => ih part hpart hlt

end Node

/-! ## Constructs that events enter -/

/-- The depth and place of the construct that an event enters. -/
def Event.entered? : Event → Option (Nat × Offset)
  | .enter _ place depth => some (depth, place)
  | _ => none

/-- The constructs that some events enter. -/
def Event.entered (events : List Event) : List (Nat × Offset) := events.filterMap Event.entered?

theorem Event.entered_append {es es' : List Event} :
    entered (es ++ es') = entered es ++ entered es' := List.filterMap_append

theorem Event.entered_commas {owner : NodeKind} {places : List Offset} :
    entered (commas owner places) = [] := by
  rw [entered, commas, List.filterMap_map]
  exact List.filterMap_eq_nil_iff.2 fun _ _ => rfl

/-- The first event that enters a construct deeper than a bound. -/
theorem Event.findSome?_tooDeep? (limit : Nat) (events : List Event) :
    events.findSome? (tooDeep? limit) = ((entered events).find? (limit < ·.1)).map Prod.snd := by
  induction events with
  | nil => rfl
  | cons event events ih =>
    rw [List.findSome?_cons, entered, List.filterMap_cons, ← entered]
    cases event with
    | enter kind place depth =>
      by_cases hdeep : limit < depth
      · simp [tooDeep?, entered?, hdeep]
      · simp [tooDeep?, entered?, hdeep, ih]
    | leave kind place => exact ih
    | token owner place text => exact ih
    | checkpoint owner label => exact ih
    | refuse kind place => exact ih

private theorem Layout.entered_runEvents {owner : NodeKind} {depth : Nat} {items : List Layout}
    {separators : List Offset} : Event.entered (runEvents owner depth items separators) =
      items.flatMap fun l => Event.entered (l.events depth) := by
  induction items generalizing separators with
  | nil => exact Event.entered_commas
  | cons item items ih =>
    rw [runEvents, Event.entered_append, Event.entered_append, Event.entered_commas, ih,
      List.nil_append, List.flatMap_cons]

private theorem Row.entered_allEvents {owner : NodeKind} {depth : Nat} {rows : List Row} :
    Event.entered (allEvents owner depth rows) =
      (rows.flatMap parts).flatMap fun l => Event.entered (l.events depth) := by
  induction rows with
  | nil => rfl
  | cons row rows ih =>
    rw [allEvents, Event.entered_append, ih, List.flatMap_cons, List.flatMap_append]
    congr 1
    cases row with
    | token text place? => cases place? <;> rfl
    | lexeme lexeme? => cases lexeme? <;> rfl
    | checkpoint label present => cases present <;> rfl
    | child layout? => cases layout? <;> simp [events, parts, Event.entered]
    | list items separators => exact Layout.entered_runEvents

/-- **The events of a node enter the nodes in it**, in their order and at their depths, if none is a
placeholder. -/
theorem Node.entered_events {node : Node} (depth : Nat)
    (h : ∀ m ∈ node.preorder, m.kind.isPlaceholder = false) :
    Event.entered (node.layout.events depth) =
      (node.nested depth).map fun (n, m) => (n, m.span.start) := by
  induction node using preorder.induct generalizing depth with
  | _ node ih =>
  cases hlayout : node.layout with
  | placeholder kind span =>
    have hkind := h node (mem_preorder_self node)
    rw [← node.shape_layout.2, hlayout] at hkind
    cases hkind
  | node kind span rows =>
    have hspan : node.span = span := congrArg Layout.span hlayout
    have hparts : node.parts.flatMap (fun part => Event.entered (part.layout.events (depth + 1))) =
        node.parts.flatMap fun part =>
          (part.nested (depth + 1)).map fun (n, m) => (n, m.span.start) :=
      List.flatMap_congr fun part hpart =>
        ih part hpart (depth + 1) fun m hm => h m (preorder_subset_of_mem_parts hpart hm)
    have hrows : Event.entered (Row.allEvents kind (depth + 1) rows) =
        node.parts.flatMap fun part => Event.entered (part.layout.events (depth + 1)) := by
      rw [Row.entered_allEvents, parts_rows hlayout, List.flatMap_map]
    rw [Layout.events, Event.entered_append]
    change (depth + 1, span.start) :: Event.entered (Row.allEvents kind (depth + 1) rows) ++ [] = _
    rw [hrows, hparts, nested_eq, List.map_cons, List.map_flatMap, List.append_nil, ← hspan]

/-! ## Bounds -/

variable {options : Options} {table : LineTable}

/-- **A file that has a trace has the same under another bound**, or fails there at the first node
that is one deeper than the bound. -/
theorem File.trace_nested {file : File} {fragments : List Fragment}
    (h : file.trace table options = .ok fragments) (limit : Nat) :
    file.trace table { options with maxDepth := limit } =
      match file.nested.find? (·.1 == limit + 1) with
      | none => .ok fragments
      | some (_, node) => .error (.nestingTooDeep limit node.span.start) := by
  have hentered : Event.entered file.events = file.nested.map fun (n, m) => (n, m.span.start) :=
    Node.entered_events 0 (isPlaceholder_of_trace h)
  have hfirst : file.events.findSome? (Event.tooDeep? limit) =
      (file.nested.find? (·.1 == limit + 1)).map (·.2.span.start) := by
    rw [Event.findSome?_tooDeep?, hentered, List.find?_map, Option.map_map, nested,
      ← Node.find?_nested (Nat.zero_le limit)]
    rfl
  rw [trace_limit h, hfirst]
  cases file.nested.find? (·.1 == limit + 1) <;> rfl

/-- **The bound on nesting is exact, and the trace does not show it otherwise.** Let a file have a
trace under some bound. The height of its layout is the depth of the deepest of its nodes. Under a
bound of at least that height the file has the same trace. Under a lower bound it fails, and the
error names the bound and the start of the first node that is one deeper. -/
theorem trace_maxDepth {file : File} {fragments : List Fragment}
    (h : file.trace table options = .ok fragments) :
    IsGreatest {n | ∃ node, (n, node) ∈ file.nested} file.layout.height ∧
      (∀ limit, file.layout.height ≤ limit →
        file.trace table { options with maxDepth := limit } = .ok fragments) ∧
      ∀ limit < file.layout.height, ∃ node,
        file.nested.find? (·.1 == limit + 1) = some (limit + 1, node) ∧
          file.trace table { options with maxDepth := limit } =
            .error (.nestingTooDeep limit node.span.start) := by
  have hgreatest : IsGreatest {n | ∃ node, (n, node) ∈ file.nested} (0 + file.layout.height) :=
    (Node.file file).isGreatest_height 0
  rw [Nat.zero_add] at hgreatest
  refine ⟨hgreatest, fun limit hle => ?_, fun limit hlt => ?_⟩
  · have hnone : file.nested.find? (·.1 == limit + 1) = none := by
      refine List.find?_eq_none.2 fun (n, node) hmem heq => ?_
      have hn : n ≤ file.layout.height := hgreatest.2 ⟨node, hmem⟩
      obtain rfl : n = limit + 1 := by simpa using heq
      omega
    rw [File.trace_nested h, hnone]
  · obtain ⟨deepest, hdeepest⟩ := hgreatest.1
    obtain ⟨⟨n, node⟩, hfind⟩ : ∃ p, file.nested.find? (limit < ·.1) = some p :=
      Option.isSome_iff_exists.1 (List.find?_isSome.2 ⟨_, hdeepest, by simpa using hlt⟩)
    rw [File.nested, Node.find?_nested (Nat.zero_le limit), ← File.nested] at hfind
    obtain rfl : n = limit + 1 := by simpa using List.find?_some hfind
    refine ⟨node, hfind, ?_⟩
    rw [File.trace_nested h, hfind]

/-- The trace of `clauseFile` needs a bound of two, for the file and the name in it. -/
theorem trace_maxDepth_clauseFile :
    ∃ fragments, clauseFile.trace (.ofString clauseText) {} = .ok fragments ∧
      IsGreatest {n | ∃ node, (n, node) ∈ clauseFile.nested} clauseFile.layout.height ∧
      (∀ limit, clauseFile.layout.height ≤ limit →
        clauseFile.trace (.ofString clauseText) { maxDepth := limit } = .ok fragments) ∧
      ∀ limit < clauseFile.layout.height, ∃ node,
        clauseFile.nested.find? (·.1 == limit + 1) = some (limit + 1, node) ∧
          clauseFile.trace (.ofString clauseText) { maxDepth := limit } =
            .error (.nestingTooDeep limit node.span.start) := by
  obtain ⟨fragments, h⟩ := exists_trace_clauseFile
  exact ⟨fragments, h, trace_maxDepth h⟩

end GoTrace
