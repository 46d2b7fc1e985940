import GoTrace.Proofs.Trace.Account

/-!
# Traces without checkpoints

Checkpoints only add to a trace. A checkpoint stands where the cursor is, and it fails if there is
no line and column for that place; but wherever the cursor has got to there is one
(`Cursor.Resolves.step`): it got there by a mark that has a position, or over a token that ends
between two characters. So a checkpoint never fails, and a trace that shows none is the trace that
shows them, less the checkpoints, or the same error (`File.trace_dropCheckpoints`).
-/

namespace GoTrace

variable {options : Options} {table : LineTable} {c d : Cursor} {fs : List Fragment}

/-- The fragments that are no checkpoints. -/
def dropCheckpoints (fragments : List Fragment) : List Fragment :=
  fragments.filter (·.mark.kind ≠ .nodeCheckpoint)

/-- Fragments of a gap, and one behind them that is no checkpoint, are kept. -/
theorem dropCheckpoints_concat {f : Fragment} (hfs : ∀ g ∈ fs, g.mark.construct? = none)
    (hf : f.mark.kind ≠ .nodeCheckpoint) : dropCheckpoints (fs ++ [f]) = fs ++ [f] := by
  refine List.filter_eq_self.2 (List.forall_mem_append.2 ⟨fun g hg => ?_, by simpa using hf⟩)
  have htrivia := Mark.construct?_eq_none_iff.1 (hfs g hg)
  refine decide_eq_true fun hkind => ?_
  rw [hkind] at htrivia
  cases htrivia

namespace Cursor

/-! ## Where the cursor is -/

/-- The place of the cursor has a line and column. -/
def Resolves (table : LineTable) (c : Cursor) : Prop := (table.position? c.place).isSome

/-- Such a place lies between two characters, or at an end of the text. -/
theorem Resolves.isValid (h : c.Resolves table) :
    String.Pos.Raw.isValid table.text ⟨c.place.toNat⟩ :=
  isValid_iff_cut.2 (LineTable.position?_isSome_iff.1 h)

theorem resolves_atStart (table : LineTable) (comments : List Comment) :
    (atStart comments).Resolves table :=
  LineTable.position?_isSome_iff.2 ⟨[], table.text.toList, rfl, rfl⟩

theorem resolves_of_markAt {place : Offset} {mark : Mark}
    (h : c.markAt table place mark = .ok (fs, d)) : d.Resolves table := by
  obtain ⟨_, p, hadvance, hp, -⟩ := markAt_eq_ok_iff.1 h
  rw [Resolves, advanceTo_place hadvance, hp]
  rfl

theorem resolves_of_takeToken {owner : NodeKind} {place : Offset} {text : String}
    (h : c.takeToken table owner place text = .ok (fs, d)) : d.Resolves table := by
  obtain ⟨_, _, _, -, hslice, -, -, rfl⟩ := takeToken_eq_ok_iff.1 h
  obtain ⟨front, rest, htext, -, hstop⟩ := LineTable.slice?_eq_some_iff.1 hslice
  rw [← String.utf8Len_append] at hstop
  exact LineTable.position?_isSome_iff.2 ⟨front ++ text.toList, rest, htext, hstop⟩

/-- **A step ends at a place with a line and column**, if it starts at one. -/
theorem Resolves.step {event : Event} (hc : c.Resolves table)
    (h : c.step options table event = .ok (fs, d)) : d.Resolves table := by
  cases event with
  | enter kind place depth => exact resolves_of_markAt (step_enter h).2
  | leave kind place => exact resolves_of_markAt h
  | token owner place text => exact resolves_of_takeToken h
  | checkpoint owner label => exact (step_checkpoint h).1 ▸ hc
  | refuse kind place => cases h

/-! ## Runs that show no checkpoints -/

/-- A mark that is no checkpoint is set with no checkpoint in front of it. -/
theorem dropCheckpoints_of_markAt {place : Offset} {mark : Mark}
    (hmark : mark.kind ≠ .nodeCheckpoint) (h : c.markAt table place mark = .ok (fs, d)) :
    dropCheckpoints fs = fs := by
  obtain ⟨gs, p, hadvance, -, rfl⟩ := markAt_eq_ok_iff.1 h
  exact dropCheckpoints_concat (unowned_advanceTo hadvance) hmark

/-- A token is taken with no checkpoint in front of it. -/
theorem dropCheckpoints_of_takeToken {owner : NodeKind} {place : Offset} {text : String}
    (h : c.takeToken table owner place text = .ok (fs, d)) : dropCheckpoints fs = fs := by
  obtain ⟨gs, _, p, hadvance, -, -, rfl, -⟩ := takeToken_eq_ok_iff.1 h
  exact dropCheckpoints_concat (unowned_advanceTo hadvance) MarkKind.noConfusion

/-- What has no checkpoints is the same without them. -/
private theorem map_dropCheckpoints {x : Except TraceError (List Fragment × Cursor)}
    (h : ∀ fs d, x = .ok (fs, d) → dropCheckpoints fs = fs) :
    x = x.map fun (fragments, d) => (dropCheckpoints fragments, d) := by
  cases x with
  | error e => rfl
  | ok result =>
    obtain ⟨fs, d⟩ := result
    change Except.ok (fs, d) = Except.ok (dropCheckpoints fs, d)
    rw [h fs d rfl]

/-- **A step that shows no checkpoints is the step that shows them, less the checkpoints**, where
the cursor has a line and column. -/
theorem step_dropCheckpoints (options : Options) (event : Event) (hc : c.Resolves table) :
    c.step { options with checkpoints := false } table event =
      (c.step { options with checkpoints := true } table event).map
        fun (fragments, d) => (dropCheckpoints fragments, d) := by
  cases event with
  | enter kind place depth =>
    rw [step, step]
    split
    · rfl
    · exact map_dropCheckpoints fun _ _ => dropCheckpoints_of_markAt MarkKind.noConfusion
  | leave kind place =>
    exact map_dropCheckpoints fun _ _ => dropCheckpoints_of_markAt MarkKind.noConfusion
  | token owner place text => exact map_dropCheckpoints fun _ _ => dropCheckpoints_of_takeToken
  | checkpoint owner label =>
    -- the one place where the step that shows checkpoints could fail alone
    obtain ⟨p, hp⟩ := Option.isSome_iff_exists.1 hc
    rw [step, step, if_neg (by simp), if_pos rfl, LineTable.resolve_eq_ok_iff.2 hp]
    rfl
  | refuse kind place => rfl

/-- Fragments are put behind those already made before checkpoints are dropped, or after. -/
private theorem filter_append (made : Array Fragment) (fs : List Fragment) :
    (made ++ fs).filter (·.mark.kind ≠ .nodeCheckpoint) =
      made.filter (·.mark.kind ≠ .nodeCheckpoint) ++ dropCheckpoints fs := by
  rw [← Array.toList_inj]
  simp [dropCheckpoints]

/-- **A run that shows no checkpoints is the run that shows them, less the checkpoints.** What was
made before the run is taken without its checkpoints as well. -/
theorem run_dropCheckpoints (options : Options) (events : List Event) (hc : c.Resolves table)
    (made : Array Fragment) :
    c.run { options with checkpoints := false } table events
        (made.filter (·.mark.kind ≠ .nodeCheckpoint)) =
      (c.run { options with checkpoints := true } table events made).map
        fun (fragments, d) => (fragments.filter (·.mark.kind ≠ .nodeCheckpoint), d) := by
  induction events generalizing c made with
  | nil => rfl
  | cons event events ih =>
    rw [run, run, step_dropCheckpoints options event hc]
    cases hstep : c.step { options with checkpoints := true } table event with
    | error e => rfl
    | ok result =>
      obtain ⟨fs, d⟩ := result
      rw [← ih (hc.step hstep), filter_append]
      rfl

end Cursor

/-- **Checkpoints only add to a trace.** Whatever the bound on nesting, the trace of a file that
shows no checkpoints is the trace that shows them, less the checkpoints, and where there is none, the
error is the same. -/
theorem File.trace_dropCheckpoints (file : File) (table : LineTable) (options : Options) :
    file.trace table { options with checkpoints := false } =
      (file.trace table { options with checkpoints := true }).map dropCheckpoints := by
  have hrun := Cursor.run_dropCheckpoints options file.events
    (Cursor.resolves_atStart table file.comments) #[]
  rw [Array.filter_empty] at hrun
  rw [trace, trace, hrun]
  cases (Cursor.atStart file.comments).run { options with checkpoints := true } table file.events
      #[] with
  | error e => rfl
  | ok result =>
    obtain ⟨made, c⟩ := result
    -- comments are left over with checkpoints iff they are without
    cases hfinish : c.finish with
    | error e => simp [bind, Except.bind, Except.map, hfinish]
    | ok _ =>
      simp [bind, Except.bind, Except.map, hfinish, dropCheckpoints, pure, Except.pure]

end GoTrace
