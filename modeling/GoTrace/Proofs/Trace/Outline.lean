import GoTrace.Proofs.Layout.Nodes
import GoTrace.Proofs.Trace.Coverage

/-!
# The constructs of a trace

The starts and ends of a trace are brackets. `forest` reads them without looking at any tree: it
keeps the constructs that are open, refuses an end that is not that of the innermost of them and a
token or checkpoint that is not its own, and collects what stands in each construct.

What has to stand there is said without looking at any trace: the outline of a layout is, for each
construct and row by row, its tokens, its checkpoints and its parts (`Layout.outline`). A row adds
nothing only if there is nothing in it, or if it is a checkpoint and these are not shown.

A trace is read as the outline of its file and as nothing else (`forest_of_trace`). The proof goes
through the rows of a layout and follows the run of the cursor: reading what a run through some
rows has made adds the outlines of these rows to those of the construct they stand in, and leaves
the constructs around it as they are (`Shows`).
-/

namespace GoTrace

/-! ## Outlines -/

/-- What stands in a construct: a token, a checkpoint, or a construct of its own with what stands in
that. -/
inductive Outline
  | token (place : Offset) (text : String)
  | checkpoint (label : String)
  | construct (kind : NodeKind) (span : Span) (contents : List Outline)

/-- The outlines of some commas. -/
def Outline.commas (places : List Offset) : List Outline := places.map (.token · ",")

mutual

/-- The kind and the bytes of every construct of an outline, each in front of those in it. -/
def Outline.constructs : Outline → List (NodeKind × Span)
  | .token _ _ | .checkpoint _ => []
  | .construct kind span contents => (kind, span) :: Outline.allConstructs contents

/-- The kind and the bytes of every construct of some outlines. -/
def Outline.allConstructs : List Outline → List (NodeKind × Span)
  | [] => []
  | outline :: outlines => outline.constructs ++ Outline.allConstructs outlines

end

mutual

/-- The outline of a construct. -/
def Layout.outline (options : Options) : Layout → Outline
  | .node kind span rows => .construct kind span (Row.allOutlines options rows)
  | .placeholder kind span => .construct kind span []

/-- What a row adds to the outline of its construct. Nothing comes of a token or part that is
missing, of a checkpoint whose part is missing, and of any checkpoint if these are not shown. -/
def Row.outlines (options : Options) : Row → List Outline
  | .token _ none | .lexeme none | .checkpoint _ false | .child none => []
  | .token text (some place) | .lexeme (some (place, text)) => [.token place text]
  | .checkpoint label true => if options.checkpoints then [.checkpoint label] else []
  | .child (some layout) => [layout.outline options]
  | .list items separators => Layout.runOutlines options items separators

/-- What some rows add to the outline of their construct. -/
def Row.allOutlines (options : Options) : List Row → List Outline
  | [] => []
  | row :: rows => row.outlines options ++ Row.allOutlines options rows

/-- The outlines of a run of constructs. A comma stands in front of the first construct that starts
behind it, or else behind the run. -/
def Layout.runOutlines (options : Options) : List Layout → List Offset → List Outline
  | [], separators => Outline.commas separators
  | item :: items, separators =>
    Outline.commas (separators.takeWhile (· < item.start)) ++ item.outline options ::
      Layout.runOutlines options items (separators.dropWhile (· < item.start))

end

/-! ## Reading a trace -/

/-- A construct that has started and not yet ended. -/
structure OpenConstruct where
  /-- The kind of the construct. -/
  kind : NodeKind
  /-- Where it starts. -/
  start : Offset
  /-- What stands in front of it, in the construct around it. -/
  before : List Outline

/-- How far a trace is read. -/
structure Nest where
  /-- What stands in the innermost open construct, or outside of all if none is open. -/
  contents : List Outline
  /-- The open constructs, the innermost first. -/
  opens : List OpenConstruct

namespace Nest

/-- The kind of the innermost open construct. -/
def innermost? (n : Nest) : Option NodeKind := n.opens.head?.map OpenConstruct.kind

/-- Adds to what stands in the innermost open construct. -/
def extend (n : Nest) (contents : List Outline) : Nest :=
  { n with contents := n.contents ++ contents }

/-- Starts a construct. -/
def enter (n : Nest) (kind : NodeKind) (start : Offset) : Nest :=
  ⟨[], ⟨kind, start, n.contents⟩ :: n.opens⟩

/-- Ends the innermost open construct, if it is of the given kind. -/
def leave? (n : Nest) (kind : NodeKind) (stop : Offset) : Option Nest :=
  match n.opens with
  | [] => none
  | innermost :: opens =>
    if innermost.kind = kind then
      some ⟨innermost.before ++ [.construct kind ⟨innermost.start, stop⟩ n.contents], opens⟩
    else none

/-- Reads one fragment. -/
def read? (n : Nest) (f : Fragment) : Option Nest :=
  match f.mark with
  | .nodeStart kind => some (n.enter kind f.position.offset)
  | .nodeEnd kind => n.leave? kind f.position.offset
  | .token owner text =>
    if n.innermost? = some owner then some (n.extend [.token f.position.offset text]) else none
  | .checkpoint owner label =>
    if n.innermost? = some owner then some (n.extend [.checkpoint label]) else none
  | .comment _ | .lineBreak | .blankLine => some n

/-- Reads some fragments one after the other. -/
def readAll? (n : Nest) (fragments : List Fragment) : Option Nest := fragments.foldlM read? n

end Nest

/-- The constructs of a trace, each with what stands in it. There are none if starts and ends do not
match, or if a token or checkpoint is not that of the innermost construct around it. -/
def forest (fragments : List Fragment) : Option (List Outline) :=
  match (Nest.mk [] []).readAll? fragments with
  | some ⟨contents, []⟩ => some contents
  | _ => none

/-! ## The constructs of an outline -/

variable {options : Options}

@[simp]
theorem Outline.allConstructs_append {outlines outlines' : List Outline} :
    Outline.allConstructs (outlines ++ outlines') =
      Outline.allConstructs outlines ++ Outline.allConstructs outlines' := by
  induction outlines with
  | nil => rfl
  | cons outline outlines ih =>
    rw [List.cons_append, Outline.allConstructs, Outline.allConstructs, ih, List.append_assoc]

/-- Commas are no constructs. -/
@[simp]
theorem Outline.allConstructs_commas {places : List Offset} :
    Outline.allConstructs (Outline.commas places) = [] := by
  induction places with
  | nil => rfl
  | cons place places ih => exact ih

private theorem constructs_runOutlines {items : List Layout} {separators : List Offset} :
    Outline.allConstructs (Layout.runOutlines options items separators) =
      items.flatMap fun item => (item.outline options).constructs := by
  induction items generalizing separators with
  | nil => exact Outline.allConstructs_commas
  | cons item items ih =>
    rw [Layout.runOutlines, Outline.allConstructs_append, Outline.allConstructs_commas,
      Outline.allConstructs, ih]
    rfl

private theorem constructs_outlines {row : Row} :
    Outline.allConstructs (row.outlines options) =
      row.parts.flatMap fun l => (l.outline options).constructs := by
  cases row with
  | token text place? => cases place? <;> rfl
  | lexeme lexeme? => cases lexeme? <;> rfl
  | checkpoint label present =>
    cases present with
    | false => rfl
    | true =>
      rw [Row.outlines]
      split <;> rfl
  | child layout? => cases layout? <;> rfl
  | list items separators => exact constructs_runOutlines

private theorem constructs_allOutlines {rows : List Row} :
    Outline.allConstructs (Row.allOutlines options rows) =
      (rows.flatMap Row.parts).flatMap fun l => (l.outline options).constructs := by
  induction rows with
  | nil => rfl
  | cons row rows ih =>
    rw [Row.allOutlines, Outline.allConstructs_append, constructs_outlines, ih, List.flatMap_cons,
      List.flatMap_append]

/-- **An outline has the constructs of its layout**, each once and in the same order, with the bytes
that the construct covers. -/
theorem Layout.constructs_outline (options : Options) (l : Layout) :
    (l.outline options).constructs = l.preorder.map fun m => (m.kind, m.span) := by
  induction l using Layout.inductionOnParts with
  | _ l ih =>
  rw [Layout.preorder_eq, List.map_cons, List.map_flatMap, List.flatMap_def,
    ← List.map_congr_left ih, ← List.flatMap_def]
  cases l with
  | node kind span rows =>
    rw [Layout.outline, Outline.constructs, constructs_allOutlines]
    rfl
  | placeholder kind span => rfl

/-! ## Reading gaps and single fragments -/

namespace Nest

variable {n : Nest}

@[simp]
theorem extend_nil : n.extend [] = n := by
  rw [extend, List.append_nil]

@[simp]
theorem extend_extend {contents contents' : List Outline} :
    (n.extend contents).extend contents' = n.extend (contents ++ contents') := by
  rw [extend, extend, extend, List.append_assoc]

@[simp]
theorem innermost?_extend {contents : List Outline} :
    (n.extend contents).innermost? = n.innermost? := rfl

@[simp]
theorem innermost?_enter {kind : NodeKind} {start : Offset} :
    (n.enter kind start).innermost? = some kind := rfl

/-- What has started ends with what stands in it by then. -/
theorem leave?_enter {kind : NodeKind} {start stop : Offset} {contents : List Outline} :
    ((n.enter kind start).extend contents).leave? kind stop =
      some (n.extend [.construct kind ⟨start, stop⟩ contents]) := by
  simp [enter, extend, leave?]

/-- Reading in two goes. -/
theorem readAll?_append {fs gs : List Fragment} :
    n.readAll? (fs ++ gs) = (n.readAll? fs).bind (·.readAll? gs) :=
  List.foldlM_append

/-- Reading a fragment behind others. -/
theorem readAll?_concat {fs : List Fragment} {f : Fragment} :
    n.readAll? (fs ++ [f]) = (n.readAll? fs).bind (·.read? f) := by
  rw [readAll?_append]
  congr 1
  funext m
  simp [readAll?]

/-- Trivia are passed over. -/
theorem readAll?_trivia {fs : List Fragment} (h : ∀ f ∈ fs, f.mark.construct? = none) :
    n.readAll? fs = some n := by
  induction fs with
  | nil => rfl
  | cons f fs ih =>
    rw [List.forall_mem_cons] at h
    have hread : n.read? f = some n := by
      rw [read?]
      cases hmark : f.mark <;> simp_all [Mark.construct?]
    rw [readAll?, List.foldlM_cons, hread]
    exact ih h.2

end Nest

variable {table : LineTable} {c c' : Cursor} {fs gs : List Fragment} {owner : NodeKind}
  {depth : Nat}

/-- The fragments of a mark that is set are trivia and the mark, so reading them reads the mark. -/
private theorem readAll?_markAt {n : Nest} {place : Offset} {m : Mark}
    (h : c.markAt table place m = .ok (fs, c')) :
    ∃ p : Position, p.offset = place ∧ n.readAll? fs = n.read? ⟨m, p⟩ := by
  obtain ⟨gs, p, hadvance, hp, rfl⟩ := Cursor.markAt_eq_ok_iff.1 h
  refine ⟨p, LineTable.offset_of_position? hp, ?_⟩
  rw [Nest.readAll?_concat, Nest.readAll?_trivia (unowned_advanceTo hadvance), Option.bind_some]

/-! ## Rows -/

/-- Read in a construct of the kind `owner`, the fragments add `contents` to what stands there. -/
def Shows (owner : NodeKind) (fs : List Fragment) (contents : List Outline) : Prop :=
  ∀ n : Nest, n.innermost? = some owner → n.readAll? fs = some (n.extend contents)

/-- No fragments add nothing. -/
theorem Shows.nil : Shows owner [] [] := fun n _ => congrArg some n.extend_nil.symm

/-- Fragments behind others add to what these have added. -/
theorem Shows.append {contents contents' : List Outline} (h : Shows owner fs contents)
    (h' : Shows owner gs contents') : Shows owner (fs ++ gs) (contents ++ contents') := by
  intro n hn
  rw [Nest.readAll?_append, h n hn, Option.bind_some, h' _ (Nest.innermost?_extend.trans hn),
    Nest.extend_extend]

/-- A token event adds the token. -/
theorem shows_token {place : Offset} {text : String}
    (h : c.step options table (.token owner place text) = .ok (fs, c')) :
    Shows owner fs [.token place text] := by
  intro n hn
  obtain ⟨gs, d, p, hadvance, -, hp, rfl, -⟩ := Cursor.takeToken_eq_ok_iff.1 h
  rw [Nest.readAll?_concat, Nest.readAll?_trivia (unowned_advanceTo hadvance), Option.bind_some]
  simp only [Nest.read?, if_pos hn, LineTable.offset_of_position? hp]

/-- A checkpoint event adds the checkpoint, if checkpoints are shown. -/
theorem shows_checkpoint {label : String}
    (h : c.step options table (.checkpoint owner label) = .ok (fs, c')) :
    Shows owner fs (if options.checkpoints then [.checkpoint label] else []) := by
  obtain ⟨-, ⟨hshown, p, -, rfl⟩ | ⟨hshown, rfl⟩⟩ := Cursor.step_checkpoint h
  · intro n hn
    simp [hshown, Nest.readAll?, Nest.read?, hn]
  · rw [hshown]
    exact .nil

/-- The events of commas add the commas. -/
theorem shows_commas {places : List Offset}
    (h : c.Runs options table (Event.commas owner places) fs c') :
    Shows owner fs (Outline.commas places) := by
  induction places generalizing c fs with
  | nil =>
    obtain ⟨rfl, -⟩ := h
    exact .nil
  | cons place places ih =>
    obtain ⟨gs, d, hs, hstep, hruns, rfl⟩ := h
    exact (shows_token hstep).append (ih hruns)

/-- Whatever is open, reading what a run through a construct has made adds the construct. -/
def Layout.IsShown (options : Options) (table : LineTable) (l : Layout) : Prop :=
  ∀ {depth : Nat} {c c' : Cursor} {fs : List Fragment},
    c.Runs options table (l.events depth) fs c' →
      ∀ n : Nest, n.readAll? fs = some (n.extend [l.outline options])

/-- A run of constructs that are shown adds these and the commas. -/
theorem shows_runEvents {items : List Layout} {separators : List Offset}
    (hitems : ∀ item ∈ items, item.IsShown options table)
    (h : c.Runs options table (Layout.runEvents owner depth items separators) fs c') :
    Shows owner fs (Layout.runOutlines options items separators) := by
  induction items generalizing separators c fs with
  | nil => exact shows_commas h
  | cons item items ih =>
    rw [List.forall_mem_cons] at hitems
    -- the commas in front of the construct, the construct, and the others
    obtain ⟨_, d, hs, hfront, hrest, rfl⟩ := Cursor.runs_append.1 h
    obtain ⟨fs, d', gs, hcommas, hitem, rfl⟩ := Cursor.runs_append.1 hfront
    have hshown : Shows owner gs [item.outline options] := fun n _ => hitems.1 hitem n
    rw [Layout.runOutlines, ← List.singleton_append, ← List.append_assoc]
    exact ((shows_commas hcommas).append hshown).append (ih hitems.2 hrest)

/-- A row of parts that are shown adds its outlines. -/
theorem shows_row {row : Row} (hparts : ∀ l ∈ row.parts, l.IsShown options table)
    (h : c.Runs options table (row.events owner depth) fs c') :
    Shows owner fs (row.outlines options) := by
  cases row with
  | token text place? =>
    cases place? with
    | none => exact h.1 ▸ .nil
    | some place => exact shows_token (Cursor.runs_singleton.1 h)
  | lexeme lexeme? =>
    cases lexeme? with
    | none => exact h.1 ▸ .nil
    | some lexeme => exact shows_token (Cursor.runs_singleton.1 h)
  | checkpoint label present =>
    cases present with
    | false => exact h.1 ▸ .nil
    | true => exact shows_checkpoint (Cursor.runs_singleton.1 h)
  | child layout? =>
    cases layout? with
    | none => exact h.1 ▸ .nil
    | some l => exact fun n _ => hparts l (by simp [Row.parts]) h n
  | list items separators => exact shows_runEvents hparts h

/-- Rows of parts that are shown add their outlines. -/
theorem shows_rows {rows : List Row}
    (hparts : ∀ l ∈ rows.flatMap Row.parts, l.IsShown options table)
    (h : c.Runs options table (Row.allEvents owner depth rows) fs c') :
    Shows owner fs (Row.allOutlines options rows) := by
  induction rows generalizing c fs with
  | nil => exact h.1 ▸ .nil
  | cons row rows ih =>
    rw [List.flatMap_cons, List.forall_mem_append] at hparts
    obtain ⟨fs, d, gs, hrow, hrows, rfl⟩ := Cursor.runs_append.1 h
    exact (shows_row hparts.1 hrow).append (ih hparts.2 hrows)

/-! ## Constructs -/

/-- **Every construct is shown**: reading what a run through it has made adds its outline, whatever
is open around it. -/
theorem Layout.isShown (options : Options) (table : LineTable) (l : Layout) :
    l.IsShown options table := by
  induction l using Layout.inductionOnParts with
  | _ l ih =>
  intro depth c c' fs h n
  cases l with
  | placeholder kind span => cases Cursor.runs_singleton.1 h
  | node kind span rows =>
    -- the start opens the construct, the rows add to it, and the end puts it into what is around
    obtain ⟨_, d', ks, hfront, hleave, rfl⟩ := Cursor.runs_append.1 h
    obtain ⟨gs, d, hs, henter, hrows, rfl⟩ := hfront
    obtain ⟨p, hp, hstart⟩ := readAll?_markAt (n := n) (Cursor.step_enter henter).2
    obtain ⟨q, hq, hstop⟩ := readAll?_markAt
      (n := (n.enter kind span.start).extend (Row.allOutlines options rows))
      (Cursor.runs_singleton.1 hleave)
    rw [Nest.readAll?_append, Nest.readAll?_append, hstart]
    simp only [Nest.read?, hp, Option.bind_some]
    rw [shows_rows ih hrows _ Nest.innermost?_enter, Option.bind_some, hstop]
    simp only [Nest.read?, hq]
    exact Nest.leave?_enter

/-- A file with a placeholder has no trace. -/
theorem isPlaceholder_of_trace {file : File} {fragments : List Fragment}
    (h : file.trace table options = .ok fragments) :
    ∀ node ∈ file.nodes, node.kind.isPlaceholder = false := by
  intro node hnode
  obtain ⟨c, hruns, -⟩ := File.trace_eq_ok_iff.1 h
  have hlayout : node.layout ∈ file.layout.preorder := by
    rw [File.preorder_layout]
    exact List.mem_map_of_mem hnode
  rw [← Bool.not_eq_true, ← node.shape_layout.2]
  intro hrows
  -- no cursor takes the step that refuses the placeholder
  obtain ⟨d, d', gs, hstep⟩ :=
    hruns.exists_step (Layout.refuse_mem_events hlayout hrows 0)
  cases hstep

/-- **A trace nests as its file does.** Its starts and ends are brackets of one construct, the file;
every token and checkpoint is that of the construct it stands in, and in each construct there stand,
row by row, the tokens, checkpoints and parts of its layout. The constructs are the nodes of the
file, each once, from its first byte to its last. None of them is a placeholder, and what is left,
comments and line markers, belongs to no construct. -/
theorem forest_of_trace {file : File} {fragments : List Fragment}
    (h : file.trace table options = .ok fragments) :
    forest fragments = some [file.layout.outline options] ∧
      (file.layout.outline options).constructs =
        file.nodes.map (fun node => (node.kind, node.span)) ∧
      (∀ node ∈ file.nodes, node.kind.isPlaceholder = false) ∧
      ∀ f ∈ fragments, f.mark.kind.isTrivia → f.mark.construct? = none := by
  refine ⟨?_, ?_, isPlaceholder_of_trace h, fun f _ => Mark.construct?_eq_none_iff.2⟩
  · obtain ⟨c, hruns, -⟩ := File.trace_eq_ok_iff.1 h
    rw [forest, Layout.isShown options table file.layout hruns]
    rfl
  · rw [Layout.constructs_outline, File.preorder_layout, List.map_map]
    refine List.map_congr_left fun node _ => ?_
    rw [Function.comp_apply, node.shape_layout.1, Node.span]

/-- The trace of `clauseFile` nests as `clauseFile` does. -/
theorem forest_clauseFile :
    ∃ fragments, clauseFile.trace (.ofString clauseText) {} = .ok fragments ∧
      forest fragments = some [clauseFile.layout.outline {}] ∧
      (clauseFile.layout.outline {}).constructs =
        clauseFile.nodes.map (fun node => (node.kind, node.span)) ∧
      (∀ node ∈ clauseFile.nodes, node.kind.isPlaceholder = false) ∧
      ∀ f ∈ fragments, f.mark.kind.isTrivia → f.mark.construct? = none := by
  obtain ⟨fragments, h⟩ := exists_trace_clauseFile
  exact ⟨fragments, h, forest_of_trace h⟩

/-- In `clauseFile` there are the keyword and the name, with a checkpoint behind each. -/
example : clauseFile.layout.outline {} =
    .construct .file ⟨.zero, .ofNat 17⟩
      [.token .zero "package", .checkpoint "AfterPackage",
       .construct .ident ⟨.ofNat 9, .ofNat 10⟩ [.token (.ofNat 9) "p"],
       .checkpoint "AfterName"] := rfl

end GoTrace
