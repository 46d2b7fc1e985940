import GoTrace.Proofs.Trace.Fits

/-!
# Files with a trace fit their text

Nothing less than `Fits` will do: what the walk gets through fits. `Fits` says what is still to
come, so its proof goes along the run from the end to the start. Behind the last event nothing is
left, and that always fits (`Fits.nil`). Whatever a step makes into fragments can be put in
front of what fits behind it: whitespace (`Fits.beforeSpace`), a comment (`Fits.beforeComment`),
and the event (`Fits.beforeEvent`). That the comments have bytes is assumed: `Fits` says so, and
the walk, which compares texts, has no check for it.
-/

namespace GoTrace

variable {options : Options} {table : LineTable}

/-! ## Going back -/

namespace Fits

variable {n m : Nat} {c : Comment} {pending : List Comment} {event : Event} {events : List Event}
  {s : Stretch}

/-- Where everything is behind, nothing is left. -/
theorem nil : Fits table n [] [] where
  token _ _ _ := nofun
  boundary := nofun
  forward := nofun
  nonempty := nofun
  ascending := .nil
  comment := nofun
  inside := nofun
  space := nofun

/-- An event fits in front of what fits from its end on, if it stands at a boundary and the text
of a token stands there. -/
theorem beforeEvent (h : Fits table s.stop pending events) (hs : event.stretch? = some s)
    (hvalid : String.Pos.Raw.isValid table.text ⟨s.start⟩)
    (htoken : ∀ owner place text, event = .token owner place text →
      StandsAt table.text place.toNat text) : Fits table s.start pending (event :: events) := by
  refine
    { h with
      token := fun owner place text hmem => ?_
      boundary := ?_
      forward := ?_
      inside := fun c hc => ?_
      space := ?_ }
  · rcases List.mem_cons.1 hmem with heq | hmem
    · exact htoken owner place text heq.symm
    · exact h.token owner place text hmem
  · rw [Event.stretches_cons hs, List.forall_mem_cons]
    exact ⟨hvalid, h.boundary⟩
  · rw [gapsFrom_stretches hs, List.forall_mem_cons]
    exact ⟨Nat.le_refl _, h.forward⟩
  · obtain ⟨gap, hgap, hin⟩ := h.inside c hc
    rw [gapsFrom_stretches hs]
    exact ⟨gap, List.mem_cons_of_mem _ hgap, hin⟩
  · rw [gapsFrom_stretches hs, List.forall_mem_cons]
    exact ⟨fun i hi => absurd hi.2 (Nat.not_lt.2 hi.1), h.space⟩

/-- A checkpoint fits in front of anything that fits. -/
theorem beforeCheckpoint {owner : NodeKind} {label : String} (h : Fits table n pending events) :
    Fits table n pending (.checkpoint owner label :: events) := by
  refine { h with token := fun owner place text hmem => ?_ }
  rcases List.mem_cons.1 hmem with heq | hmem
  · cases heq
  · exact h.token owner place text hmem

/-- What fits from behind some whitespace fits from in front of it. -/
theorem beforeSpace (h : Fits table m pending (event :: events)) (hs : event.stretch? = some s)
    (hn : n ≤ m) (hspace : ∀ i, n ≤ i → i < m → ∀ h : i < table.text.toByteArray.size,
      table.text.toByteArray[i] ∈ spaceBytes) : Fits table n pending (event :: events) := by
  have hforward := h.forward
  have hgaps := h.space
  rw [gapsFrom_stretches hs, List.forall_mem_cons] at hforward hgaps
  refine { h with forward := ?_, inside := fun c hc => ?_, space := ?_ }
  · rw [gapsFrom_stretches hs, List.forall_mem_cons]
    exact ⟨Nat.le_trans hn hforward.1, hforward.2⟩
  · rw [gapsFrom_stretches hs]
    rcases h.inside_first hs hc with ⟨hstart, hstop⟩ | ⟨gap, hgap, hin⟩
    · exact ⟨_, List.mem_cons_self, Nat.le_trans hn hstart, hstop⟩
    · exact ⟨gap, List.mem_cons_of_mem _ hgap, hin⟩
  · rw [gapsFrom_stretches hs, List.forall_mem_cons]
    refine ⟨fun i hi hout => ?_, hgaps.2⟩
    by_cases hlt : i < m
    · exact hspace i hi.1 hlt
    · exact hgaps.1 i ⟨Nat.not_lt.1 hlt, hi.2⟩ hout

/-- What fits from the end of a comment fits from its start, with the comment. -/
theorem beforeComment (h : Fits table c.stretch.stop pending (event :: events))
    (hs : event.stretch? = some s) (hne : c.stretch.start < c.stretch.stop)
    (hc : StandsAt table.text c.stretch.start c.text)
    (hlen : c.stretch.stop = c.stretch.start + c.text.utf8ByteSize) :
    Fits table c.stretch.start (c :: pending) (event :: events) := by
  have hforward := h.forward
  have hgaps := h.space
  have hle := h.le_event hs
  rw [gapsFrom_stretches hs, List.forall_mem_cons] at hforward hgaps
  refine
    { h with
      forward := ?_
      nonempty := List.forall_mem_cons.2 ⟨hne, h.nonempty⟩
      ascending := .cons (fun d hd => h.le_pending hs hd) h.ascending
      comment := List.forall_mem_cons.2 ⟨⟨hc, hlen⟩, h.comment⟩
      inside := ?_
      space := ?_ }
  · rw [gapsFrom_stretches hs, List.forall_mem_cons]
    exact ⟨Nat.le_trans (Nat.le_of_lt hne) hle, hforward.2⟩
  · rw [gapsFrom_stretches hs, List.forall_mem_cons]
    refine ⟨⟨_, List.mem_cons_self, Nat.le_refl _, hle⟩, fun d hd => ?_⟩
    rcases h.inside_first hs hd with ⟨hstart, hstop⟩ | ⟨gap, hgap, hin⟩
    · exact ⟨_, List.mem_cons_self, Nat.le_trans (Nat.le_of_lt hne) hstart, hstop⟩
    · exact ⟨gap, List.mem_cons_of_mem _ hgap, hin⟩
  · rw [gapsFrom_stretches hs, List.forall_mem_cons]
    refine ⟨fun i hi hout => ?_, fun gap hgap i hi hout => ?_⟩
    · -- a byte of the gap that is not in the comment is behind it
      rw [List.forall_mem_cons] at hout
      exact hgaps.1 i ⟨Nat.not_lt.1 fun hlt => hout.1 ⟨hi.1, hlt⟩, hi.2⟩ hout.2
    · exact hgaps.2 gap hgap i hi fun d hd => hout d (List.mem_cons_of_mem c hd)

/-! ## Walks that succeed -/

variable {start stop place : Offset} {owned : Bool} {fs : List Fragment} {left : List Comment}

/-- Bytes that are made into the fragments of whitespace are whitespace. -/
theorem space_of_whitespace (h : Gap.whitespace table start stop owned = .ok fs)
    (hstart : String.Pos.Raw.isValid table.text ⟨start.toNat⟩) :
    start ≤ stop ∧ ∀ i, start.toNat ≤ i → i < stop.toNat →
      ∀ h : i < table.text.toByteArray.size, table.text.toByteArray[i] ∈ spaceBytes := by
  obtain ⟨front, rest, htext, hfront⟩ := isValid_iff_cut.1 hstart
  obtain ⟨w, rest', rfl, hstop, hw, -⟩ := blank_of_whitespace h htext hfront
  rw [← List.append_assoc] at htext
  refine ⟨?_, fun i hi hi' _ => ?_⟩
  · rw [Offset.le_def, ← hfront, ← hstop, String.utf8Len_append]
    exact Nat.le_add_right _ _
  · rw [← hfront] at hi
    rw [← hstop] at hi'
    exact (space_of_blank htext hw hi hi').2

/-- The comments that a gap leaves over come last. -/
theorem suffix_of_scanFrom (h : Gap.scanFrom table stop pending start owned = .ok (fs, left)) :
    left <:+ pending := by
  refine Gap.scanFrom_induction (P := fun pending _ _ _ => left <:+ pending) ?_ ?_ h
  · exact fun _ => List.suffix_refl left
  · intro c pending _ _ _ _ _ _ _ ih
    exact ih.trans (List.suffix_cons c pending)

/-- **What fits behind a gap fits in front of it**, if the gap can be made into fragments. -/
theorem of_scanFrom (hscan : Gap.scanFrom table stop pending start owned = .ok (fs, left))
    (hstart : String.Pos.Raw.isValid table.text ⟨start.toNat⟩)
    (hne : ∀ c ∈ pending, c.stretch.start < c.stretch.stop)
    (h : Fits table stop.toNat left (event :: events)) (hs : event.stretch? = some s) :
    Fits table start.toNat pending (event :: events) := by
  refine Gap.scanFrom_induction (P := fun pending start _ _ =>
    String.Pos.Raw.isValid table.text ⟨start.toNat⟩ →
      (∀ c ∈ pending, c.stretch.start < c.stretch.stop) →
        Fits table start.toNat pending (event :: events)) ?_ ?_ hscan hstart hne
  · intro start owned gs hgs hstart _
    obtain ⟨hle, hspace⟩ := space_of_whitespace hgs hstart
    exact h.beforeSpace hs hle hspace
  · intro c pending start owned gs f _ hgs hf ih hstart hne
    rw [List.forall_mem_cons] at hne
    obtain ⟨-, -, -, hslice, -⟩ := comment_eq_ok hf
    obtain ⟨front, rest, htext, hfront, hlen⟩ := LineTable.slice?_eq_some_iff.1 hslice
    rw [hfront, ← utf8ByteSize_eq] at hlen
    have hc : StandsAt table.text c.stretch.start c.text := ⟨front, rest, htext, hfront⟩
    have hbehind : Fits table c.stretch.stop pending (event :: events) :=
      ih (hlen ▸ hc.boundaries.2) hne.2
    obtain ⟨hle, hspace⟩ := space_of_whitespace hgs hstart
    exact (hbehind.beforeComment hs hne.1 hc hlen.symm).beforeSpace hs hle hspace

/-- A cursor that moves on takes comments off the front. -/
theorem suffix_of_advanceTo {c d : Cursor} (h : c.advanceTo table place = .ok (fs, d)) :
    d.pending <:+ c.pending := by
  rcases (Cursor.advanceTo_eq_ok h).2 with hscan | ⟨-, rfl⟩
  · exact suffix_of_scanFrom hscan
  · exact List.suffix_refl _

/-- What fits where a cursor has moved to fits where it was. -/
theorem of_advanceTo {c d : Cursor} (hadvance : c.advanceTo table place = .ok (fs, d))
    (hc : c.Resolves table)
    (hne : ∀ comment ∈ c.pending, comment.stretch.start < comment.stretch.stop)
    (h : Fits table place.toNat d.pending (event :: events)) (hs : event.stretch? = some s) :
    Fits table c.place.toNat c.pending (event :: events) := by
  obtain ⟨hplace, hscan | ⟨-, rfl⟩⟩ := Cursor.advanceTo_eq_ok hadvance
  · exact of_scanFrom hscan hc.isValid hne h hs
  · rwa [hplace]

/-- What fits behind a mark fits in front of it, with the event of the mark. -/
theorem of_markAt {c d : Cursor} {mark : Mark} (hmark : c.markAt table place mark = .ok (fs, d))
    (hc : c.Resolves table)
    (hne : ∀ comment ∈ c.pending, comment.stretch.start < comment.stretch.stop)
    (h : Fits table d.place.toNat d.pending events)
    (hs : event.stretch? = some ⟨place.toNat, place.toNat⟩)
    (htoken : ∀ owner place text, event ≠ .token owner place text) :
    Fits table c.place.toNat c.pending (event :: events) := by
  obtain ⟨gs, p, hadvance, hp, rfl⟩ := Cursor.markAt_eq_ok_iff.1 hmark
  have hd := (Cursor.resolves_of_markAt hmark).isValid
  rw [Cursor.advanceTo_place hadvance] at h hd
  have hevent : Fits table place.toNat d.pending (event :: events) :=
    h.beforeEvent hs hd fun owner place text heq => absurd heq (htoken owner place text)
  exact of_advanceTo hadvance hc hne hevent hs

/-- What fits behind a token that is taken fits in front of it, with the token. -/
theorem of_takeToken {c d : Cursor} {owner : NodeKind} {text : String}
    (htoken : c.takeToken table owner place text = .ok (fs, d)) (hc : c.Resolves table)
    (hne : ∀ comment ∈ c.pending, comment.stretch.start < comment.stretch.stop)
    (h : Fits table d.place.toNat d.pending events) :
    Fits table c.place.toNat c.pending (.token owner place text :: events) := by
  obtain ⟨gs, d, p, hadvance, hslice, -, -, rfl⟩ := Cursor.takeToken_eq_ok_iff.1 htoken
  obtain ⟨front, rest, htext, hfront, hlen⟩ := LineTable.slice?_eq_some_iff.1 hslice
  have hs : (Event.token owner place text).stretch? =
      some ⟨place.toNat, place.toNat + text.utf8ByteSize⟩ := rfl
  have hstop : (place.advance text.utf8ByteSize).toNat = place.toNat + text.utf8ByteSize := by
    rw [← utf8ByteSize_eq, hfront] at hlen
    exact hlen.symm
  have hstands : StandsAt table.text place.toNat text := ⟨front, rest, htext, hfront⟩
  rw [hstop] at h
  have hevent : Fits table place.toNat d.pending (.token owner place text :: events) :=
    h.beforeEvent hs hstands.boundaries.1 fun owner' place' text' heq => by
      obtain ⟨-, rfl, rfl⟩ := Event.token.inj heq
      exact hstands
  exact of_advanceTo hadvance hc hne hevent hs

/-- A step takes comments off the front. -/
theorem suffix_of_step {c d : Cursor} (h : c.step options table event = .ok (fs, d)) :
    d.pending <:+ c.pending := by
  cases event with
  | enter kind place depth =>
    obtain ⟨_, _, hadvance, -⟩ := Cursor.markAt_eq_ok_iff.1 (Cursor.step_enter h).2
    exact suffix_of_advanceTo hadvance
  | leave kind place =>
    obtain ⟨_, _, hadvance, -⟩ := Cursor.markAt_eq_ok_iff.1 h
    exact suffix_of_advanceTo hadvance
  | token owner place text =>
    obtain ⟨_, _, _, hadvance, -, -, -, rfl⟩ := Cursor.takeToken_eq_ok_iff.1 h
    have hsuffix := suffix_of_advanceTo hadvance
    exact hsuffix
  | checkpoint owner label =>
    obtain ⟨rfl, -⟩ := Cursor.step_checkpoint h
    exact List.suffix_refl _
  | refuse kind place => cases h

/-- **What fits behind a step fits in front of it, with its event.** -/
theorem of_step {c d : Cursor} (hstep : c.step options table event = .ok (fs, d))
    (hc : c.Resolves table)
    (hne : ∀ comment ∈ c.pending, comment.stretch.start < comment.stretch.stop)
    (h : Fits table d.place.toNat d.pending events) :
    Fits table c.place.toNat c.pending (event :: events) := by
  cases event with
  | enter kind place depth => exact of_markAt (Cursor.step_enter hstep).2 hc hne h rfl nofun
  | leave kind place => exact of_markAt hstep hc hne h rfl nofun
  | token owner place text => exact of_takeToken hstep hc hne h
  | checkpoint owner label =>
    rw [(Cursor.step_checkpoint hstep).1] at h
    exact h.beforeCheckpoint
  | refuse kind place => cases hstep

/-- **The events of a run that leaves no comment over fit** from where it starts, if the comments
have bytes. -/
theorem of_runs {c d : Cursor} (hruns : c.Runs options table events fs d) (hc : c.Resolves table)
    (hne : ∀ comment ∈ c.pending, comment.stretch.start < comment.stretch.stop)
    (hpending : d.pending = []) : Fits table c.place.toNat c.pending events := by
  induction events generalizing c fs with
  | nil =>
    obtain ⟨-, rfl⟩ := hruns
    rw [hpending]
    exact nil
  | cons event events ih =>
    obtain ⟨gs, c', hs, hstep, hruns, -⟩ := hruns
    have hne' : ∀ comment ∈ c'.pending, comment.stretch.start < comment.stretch.stop :=
      fun comment hcomment => hne comment ((suffix_of_step hstep).mem hcomment)
    exact of_step hstep hc hne (ih hruns (hc.step hstep) hne')

end Fits

/-! ## Files -/

/-- **A file that has a trace fits its text**, if its comments have bytes. -/
theorem File.fits_of_trace {file : File} {fragments : List Fragment}
    (hne : ∀ c ∈ file.comments, c.span.start < c.span.stop)
    (h : file.trace table options = .ok fragments) :
    Fits table 0 file.comments file.events := by
  obtain ⟨c, hruns, hpending⟩ := File.trace_eq_ok_iff.1 h
  exact Fits.of_runs hruns (Cursor.resolves_atStart table file.comments) hne hpending

end GoTrace
