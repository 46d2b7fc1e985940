import GoTrace.Proofs.Trace.Steps

/-!
# What a trace can fail with

On its way through a text the cursor fails only where a position does not fit (`Misplaces`). That a
construct nests too deep, or that it is a placeholder, is found at its own event before the cursor
moves. So the error of a step tells which event it was (`Cursor.step_eq_error`), and the error of a
trace is that of one of its events, or of a comment that is left over (`File.trace_eq_error`).
-/

namespace GoTrace

variable {α β : Type} {x : Except TraceError α} {f : α → Except TraceError β} {table : LineTable}

/-- Whatever the computation fails with is a position that does not fit. -/
def Misplaces (x : Except TraceError α) : Prop :=
  ∀ ⦃e⦄, x = .error e → ∃ fault place, e = .malformedPosition fault place

theorem misplaces_ok {a : α} : Misplaces (.ok a) := nofun

theorem misplaces_misplaced {fault : PositionFault} {place : Offset} :
    Misplaces (misplaced fault place : Except TraceError α) := by
  intro e h
  exact ⟨fault, place, (Except.error.inj h).symm⟩

theorem Misplaces.bind (hx : Misplaces x) (hf : ∀ a, Misplaces (f a)) : Misplaces (x >>= f) := by
  intro e h
  cases x with
  | error _ => exact hx (congrArg Except.error (Except.error.inj h))
  | ok a => exact hf a h

theorem Misplaces.ite {c : Prop} [Decidable c] {y : Except TraceError α} (hx : Misplaces x)
    (hy : Misplaces y) : Misplaces (if c then x else y) := by
  split
  · exact hx
  · exact hy

/-! ## Gaps -/

theorem LineTable.misplaces_resolve (place : Offset) : Misplaces (table.resolve place) := by
  unfold resolve
  split
  · exact misplaces_ok
  · exact misplaces_misplaced

theorem LineTable.misplaces_textOf (span : Span) : Misplaces (table.textOf span) := by
  unfold textOf
  split
  · exact misplaces_ok
  · exact misplaces_misplaced

namespace Gap

theorem misplaces_markers (start : Offset) (chars : List Char) (owned : Bool) :
    Misplaces (markers table start chars owned) := by
  unfold markers
  split
  · exact misplaces_ok
  · rename_i rest _
    have hblank : ∀ place lineBreak, Misplaces (do
        let blankLine ← if rest.contains '\n' then do
            pure [(⟨.blankLine, ← table.resolve place⟩ : Fragment)]
          else pure []
        pure (lineBreak ++ blankLine)) := fun place lineBreak =>
      .ite ((table.misplaces_resolve place).bind fun _ => misplaces_ok.bind fun _ => misplaces_ok)
        (misplaces_ok.bind fun _ => misplaces_ok)
    exact .ite (misplaces_ok.bind (hblank _))
      ((table.misplaces_resolve _).bind fun _ => misplaces_ok.bind (hblank _))

theorem misplaces_whitespace (start stop : Offset) (owned : Bool) :
    Misplaces (whitespace table start stop owned) := by
  refine .ite misplaces_ok ((table.misplaces_textOf _).bind fun text => ?_)
  exact .ite misplaces_misplaced (misplaces_markers start text.toList owned)

theorem misplaces_comment (stop : Offset) (c : Comment) : Misplaces (comment table stop c) := by
  refine .ite misplaces_misplaced ((table.misplaces_textOf _).bind fun text => ?_)
  refine .ite ?_ misplaces_misplaced
  exact (table.misplaces_resolve _).bind fun _ => misplaces_ok

theorem misplaces_scanFrom (stop : Offset) (pending : List Comment) (start : Offset)
    (owned : Bool) : Misplaces (scanFrom table stop pending start owned) := by
  induction pending generalizing start owned with
  | nil => exact (misplaces_whitespace start stop owned).bind fun _ => misplaces_ok
  | cons c pending ih =>
    refine .ite ?_ ((misplaces_whitespace start stop owned).bind fun _ => misplaces_ok)
    refine (misplaces_whitespace start c.span.start owned).bind fun _ => ?_
    exact (misplaces_comment stop c).bind fun _ => (ih c.span.stop c.isLine).bind fun _ =>
      misplaces_ok

theorem misplaces_scan (pending : List Comment) (start stop : Offset) :
    Misplaces (scan table pending start stop) := by
  unfold scan
  split
  · exact .ite misplaces_misplaced (misplaces_scanFrom stop pending start false)
  · exact misplaces_scanFrom stop pending start false

end Gap

/-! ## Steps and runs -/

namespace Cursor

variable {options : Options} {c : Cursor} {e : TraceError}

theorem misplaces_advanceTo (c : Cursor) (place : Offset) :
    Misplaces (c.advanceTo table place) := by
  refine .ite misplaces_misplaced (.ite ?_ misplaces_ok)
  exact (Gap.misplaces_scan c.pending c.place place).bind fun _ => misplaces_ok

theorem misplaces_markAt (c : Cursor) (place : Offset) (mark : Mark) :
    Misplaces (c.markAt table place mark) :=
  (c.misplaces_advanceTo place).bind fun _ => (table.misplaces_resolve place).bind fun _ =>
    misplaces_ok

theorem misplaces_takeToken (c : Cursor) (owner : NodeKind) (place : Offset) (text : String) :
    Misplaces (c.takeToken table owner place text) := by
  refine (c.misplaces_advanceTo place).bind fun (fragments, c) => ?_
  dsimp only
  split
  · exact misplaces_misplaced
  · refine .ite ?_ misplaces_misplaced
    exact (table.misplaces_resolve place).bind fun _ => misplaces_ok

/-- **A step fails at a position that does not fit**, unless its event starts a construct that nests
too deep or refuses a placeholder. -/
theorem step_eq_error {event : Event} (h : c.step options table event = .error e) :
    (∃ fault place, e = .malformedPosition fault place) ∨
      (∃ kind place depth, event = .enter kind place depth ∧ options.maxDepth < depth ∧
        e = .nestingTooDeep options.maxDepth place) ∨
      ∃ kind place, event = .refuse kind place ∧ e = .unsupportedConstruct kind place := by
  cases event with
  | enter kind place depth =>
    rw [step] at h
    split at h
    · rename_i hdeep
      exact .inr (.inl ⟨kind, place, depth, rfl, hdeep, (Except.error.inj h).symm⟩)
    · exact .inl (c.misplaces_markAt place _ h)
  | leave kind place => exact .inl (c.misplaces_markAt place _ h)
  | token owner place text => exact .inl (c.misplaces_takeToken owner place text h)
  | checkpoint owner label =>
    have hstep : Misplaces (c.step options table (.checkpoint owner label)) :=
      .ite ((table.misplaces_resolve c.place).bind fun _ => misplaces_ok) misplaces_ok
    exact .inl (hstep h)
  | refuse kind place => exact .inr (.inr ⟨kind, place, rfl, (Except.error.inj h).symm⟩)

/-- **A run fails iff one of its steps does**, with the same error, behind a run through the events
in front. -/
theorem run_eq_error_iff {events : List Event} {made : Array Fragment} :
    c.run options table events made = .error e ↔
      ∃ before event after fs d, events = before ++ event :: after ∧
        c.Runs options table before fs d ∧ d.step options table event = .error e := by
  induction events generalizing c made with
  | nil => simp [run]
  | cons first events ih =>
    rw [run]
    constructor
    · intro h
      split at h
      · rename_i hstep
        obtain rfl := Except.error.inj h
        exact ⟨[], first, events, [], c, rfl, ⟨rfl, rfl⟩, hstep⟩
      · rename_i gs c' hstep
        obtain ⟨before, event, after, fs, d, rfl, hruns, hd⟩ := ih.1 h
        exact ⟨first :: before, event, after, gs ++ fs, d, rfl, ⟨gs, c', fs, hstep, hruns, rfl⟩, hd⟩
    · rintro ⟨before, event, after, fs, d, hevents, hruns, hd⟩
      cases before with
      | nil =>
        obtain ⟨rfl, -⟩ := List.cons.inj hevents
        obtain ⟨-, rfl⟩ := hruns
        rw [hd]
      | cons _ before =>
        obtain ⟨rfl, rfl⟩ := List.cons.inj hevents
        obtain ⟨gs, c', hs, hstep, hruns, -⟩ := hruns
        rw [hstep]
        exact ih.2 ⟨before, event, after, hs, d, rfl, hruns, hd⟩

theorem misplaces_finish (c : Cursor) : Misplaces c.finish := by
  unfold finish
  split
  · exact misplaces_ok
  · exact misplaces_misplaced

end Cursor

/-- **A trace fails at a position that does not fit**, or at an event that starts a construct too
deep or refuses a placeholder. -/
theorem File.trace_eq_error {file : File} {options : Options} {e : TraceError}
    (h : file.trace table options = .error e) :
    (∃ fault place, e = .malformedPosition fault place) ∨
      (∃ kind place depth, .enter kind place depth ∈ file.events ∧ options.maxDepth < depth ∧
        e = .nestingTooDeep options.maxDepth place) ∨
      ∃ kind place, .refuse kind place ∈ file.events ∧ e = .unsupportedConstruct kind place := by
  rw [trace] at h
  cases hrun : (Cursor.atStart file.comments).run options table file.events #[] with
  | ok result =>
    rw [hrun] at h
    exact .inl ((result.2.misplaces_finish.bind fun _ => misplaces_ok) h)
  | error e' =>
    rw [hrun] at h
    obtain rfl := Except.error.inj h
    obtain ⟨before, event, after, fs, d, hevents, -, hstep⟩ := Cursor.run_eq_error_iff.1 hrun
    have hevent : event ∈ file.events := by
      rw [hevents]
      exact List.mem_append_cons_self
    rcases Cursor.step_eq_error hstep with hfault | hdeep | hrefuse
    · exact .inl hfault
    · obtain ⟨kind, place, depth, rfl, hdeep, rfl⟩ := hdeep
      exact .inr (.inl ⟨kind, place, depth, hevent, hdeep, rfl⟩)
    · obtain ⟨kind, place, rfl, rfl⟩ := hrefuse
      exact .inr (.inr ⟨kind, place, hevent, rfl⟩)

end GoTrace
