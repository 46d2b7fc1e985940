import GoTrace.Trace.Run

/-!
# Runs of the cursor

`Cursor.run` keeps the fragments it has made in an array. Said without the array, a run is a
relation: through these events a cursor gets from here to there, and these are the fragments. Runs
join and split where lists of events do, and each event has a lemma that says when its step
succeeds and what comes of it. The rest of the theory is about `Runs` and never about the array.
-/

namespace GoTrace

/-- A sequence of two steps succeeds iff both do. -/
theorem bind_eq_ok_iff {ε α β : Type} {x : Except ε α} {f : α → Except ε β} {b : β} :
    x >>= f = .ok b ↔ ∃ a, x = .ok a ∧ f a = .ok b := by
  cases x <;> simp [bind, Except.bind]

/-- A value is the outcome of returning it, and of nothing else. -/
theorem pure_eq_ok_iff {ε α : Type} {a b : α} : (pure a : Except ε α) = .ok b ↔ a = b := by
  simp [pure, Except.pure]

/-- An offset resolves iff it has a position. -/
theorem LineTable.resolve_eq_ok_iff {table : LineTable} {place : Offset} {p : Position} :
    table.resolve place = .ok p ↔ table.position? place = some p := by
  rw [resolve]
  split <;> simp_all [misplaced]

/-- A span has a text iff it has a slice. -/
theorem LineTable.textOf_eq_ok_iff {table : LineTable} {span : Span} {text : String} :
    table.textOf span = .ok text ↔ table.slice? span = some text := by
  rw [textOf]
  split <;> simp_all [misplaced]

/-! ## Gaps -/

namespace Gap

variable {table : LineTable} {start stop : Offset} {pending left : List Comment} {owned : Bool}
  {fs : List Fragment}

/-- A gap is made into fragments from its first comment on. -/
theorem scanFrom_of_scan (h : scan table pending start stop = .ok (fs, left)) :
    scanFrom table stop pending start false = .ok (fs, left) := by
  rw [scan] at h
  split at h
  · split at h
    · cases h
    · exact h
  · exact h

/-- What holds of the whitespace that a gap ends with, and of whitespace and a comment in front of
anything that it holds of, holds of the gap. -/
theorem scanFrom_induction {P : List Comment → Offset → Bool → List Fragment → Prop}
    (blank : ∀ {start owned gs}, whitespace table start stop owned = .ok gs → P left start owned gs)
    (comment : ∀ {c pending start owned gs f hs},
      whitespace table start c.span.start owned = .ok gs → Gap.comment table stop c = .ok f →
        P pending c.span.stop c.isLine hs → P (c :: pending) start owned (gs ++ f :: hs))
    (h : scanFrom table stop pending start owned = .ok (fs, left)) : P pending start owned fs := by
  induction pending generalizing start owned fs with
  | nil =>
    rw [scanFrom] at h
    obtain ⟨gs, hgs, h⟩ := bind_eq_ok_iff.1 h
    obtain ⟨rfl, rfl⟩ := Prod.mk.inj (pure_eq_ok_iff.1 h)
    exact blank hgs
  | cons c pending ih =>
    rw [scanFrom] at h
    split at h
    · obtain ⟨gs, hgs, h⟩ := bind_eq_ok_iff.1 h
      obtain ⟨f, hf, h⟩ := bind_eq_ok_iff.1 h
      obtain ⟨⟨hs, left'⟩, hscan, h⟩ := bind_eq_ok_iff.1 h
      obtain ⟨rfl, rfl⟩ := Prod.mk.inj (pure_eq_ok_iff.1 h)
      exact comment hgs hf (ih hscan)
    · obtain ⟨gs, hgs, h⟩ := bind_eq_ok_iff.1 h
      obtain ⟨rfl, rfl⟩ := Prod.mk.inj (pure_eq_ok_iff.1 h)
      exact blank hgs

end Gap

namespace Cursor

variable {options : Options} {table : LineTable} {c c' c'' : Cursor}

/-! ## Runs -/

/-- Through the events the cursor gets from `c` to `c'`, and `fs` are their fragments. -/
def Runs (options : Options) (table : LineTable) :
    List Event → Cursor → List Fragment → Cursor → Prop
  | [], c, fs, c' => fs = [] ∧ c' = c
  | event :: events, c, fs, c' =>
    ∃ gs d hs, c.step options table event = .ok (gs, d) ∧ Runs options table events d hs c' ∧
      fs = gs ++ hs

/-- Fragments are put behind those already made all at once or one list after the other. -/
theorem append_append {made : Array Fragment} {gs hs : List Fragment} :
    made ++ gs ++ hs = made ++ (gs ++ hs) := by
  rw [← Array.toList_inj]
  simp

/-- A run puts its fragments behind those already made. -/
theorem run_eq_ok_iff {events : List Event} {made all : Array Fragment} :
    c.run options table events made = .ok (all, c') ↔
      ∃ fs, Runs options table events c fs c' ∧ all = made ++ fs := by
  induction events generalizing c made with
  | nil => simp [run, Runs, eq_comm, and_comm]
  | cons event events ih =>
    rw [run]
    rcases hstep : c.step options table event with e | ⟨gs, d⟩
    · simp [Runs, hstep]
    · simp only [ih, Runs, hstep]
      constructor
      · rintro ⟨hs, hruns, rfl⟩
        exact ⟨gs ++ hs, ⟨gs, d, hs, rfl, hruns, rfl⟩, append_append⟩
      · rintro ⟨_, ⟨gs', d', hs, heq, hruns, rfl⟩, rfl⟩
        rw [Except.ok.injEq, Prod.mk.injEq] at heq
        obtain ⟨rfl, rfl⟩ := heq
        exact ⟨hs, hruns, append_append.symm⟩

/-- A run through two lists of events is a run through the one and then through the other. -/
theorem runs_append {events events' : List Event} {fs : List Fragment} :
    Runs options table (events ++ events') c fs c'' ↔
      ∃ gs c' hs, Runs options table events c gs c' ∧ Runs options table events' c' hs c'' ∧
        fs = gs ++ hs := by
  induction events generalizing c fs with
  | nil =>
    constructor
    · intro h
      exact ⟨[], c, fs, ⟨rfl, rfl⟩, h, rfl⟩
    · rintro ⟨_, _, hs, ⟨rfl, rfl⟩, h, rfl⟩
      exact h
  | cons event events ih =>
    simp only [List.cons_append, Runs, ih]
    constructor
    · rintro ⟨gs, d, _, hstep, ⟨hs, d', ks, h, h', rfl⟩, rfl⟩
      exact ⟨gs ++ hs, d', ks, ⟨gs, d, hs, hstep, h, rfl⟩, h', by simp⟩
    · rintro ⟨_, d', ks, ⟨gs, d, hs, hstep, h, rfl⟩, h', rfl⟩
      exact ⟨gs, d, hs ++ ks, hstep, ⟨hs, d', ks, h, h', rfl⟩, by simp⟩

/-- A run through one event is its step. -/
theorem runs_singleton {event : Event} {fs : List Fragment} :
    Runs options table [event] c fs c' ↔ c.step options table event = .ok (fs, c') := by
  simp only [Runs]
  constructor
  · rintro ⟨gs, d, _, hstep, ⟨rfl, rfl⟩, rfl⟩
    rw [hstep, List.append_nil]
  · intro hstep
    exact ⟨fs, c', [], hstep, ⟨rfl, rfl⟩, by simp⟩

/-- Every event of a run has its step. -/
theorem Runs.exists_step {events : List Event} {fs : List Fragment} {event : Event}
    (h : c.Runs options table events fs c') (hmem : event ∈ events) :
    ∃ d d' : Cursor, ∃ gs, d.step options table event = .ok (gs, d') := by
  induction events generalizing c fs with
  | nil => cases hmem
  | cons first events ih =>
    obtain ⟨gs, d, hs, hstep, hruns, -⟩ := h
    rcases List.mem_cons.1 hmem with rfl | hmem
    · exact ⟨c, d, gs, hstep⟩
    · exact ih hruns hmem

/-! ## Steps -/

/-- A cursor that moves on makes a gap into fragments, or it is there already. -/
theorem advanceTo_eq_ok {place : Offset} {fs : List Fragment}
    (h : c.advanceTo table place = .ok (fs, c')) : c'.place = place ∧
      (Gap.scanFrom table place c.pending c.place false = .ok (fs, c'.pending) ∨
        fs = [] ∧ c' = c) := by
  rw [advanceTo] at h
  split at h
  · cases h
  split at h
  · obtain ⟨⟨gs, left⟩, hscan, h⟩ := bind_eq_ok_iff.1 h
    obtain ⟨rfl, rfl⟩ := Prod.mk.inj (pure_eq_ok_iff.1 h)
    exact ⟨rfl, .inl (Gap.scanFrom_of_scan hscan)⟩
  · rename_i hlt hgt
    obtain ⟨rfl, rfl⟩ := Prod.mk.inj (pure_eq_ok_iff.1 h)
    refine ⟨?_, .inr ⟨rfl, rfl⟩⟩
    ext
    rw [Offset.lt_def] at hlt hgt
    omega

/-- The cursor is at the place that it has advanced to. -/
theorem advanceTo_place {place : Offset} {fs : List Fragment}
    (h : c.advanceTo table place = .ok (fs, c')) : c'.place = place := (advanceTo_eq_ok h).1

/-- A mark stands where the cursor has advanced to. -/
theorem markAt_eq_ok_iff {place : Offset} {mark : Mark} {fs : List Fragment} :
    c.markAt table place mark = .ok (fs, c') ↔
      ∃ gs position, c.advanceTo table place = .ok (gs, c') ∧
        table.position? place = some position ∧ fs = gs ++ [⟨mark, position⟩] := by
  rw [markAt, bind_eq_ok_iff]
  constructor
  · rintro ⟨⟨gs, d⟩, hadvance, h⟩
    rw [bind_eq_ok_iff] at h
    obtain ⟨position, hposition, h⟩ := h
    rw [pure_eq_ok_iff, Prod.mk.injEq] at h
    obtain ⟨rfl, rfl⟩ := h
    exact ⟨gs, position, hadvance, LineTable.resolve_eq_ok_iff.1 hposition, rfl⟩
  · rintro ⟨gs, position, hadvance, hposition, rfl⟩
    refine ⟨(gs, c'), hadvance, ?_⟩
    rw [bind_eq_ok_iff]
    exact ⟨position, LineTable.resolve_eq_ok_iff.2 hposition, rfl⟩

/-- A token stands where the cursor has advanced to, its text is that of the source there, and the
cursor goes on to its end. -/
theorem takeToken_eq_ok_iff {owner : NodeKind} {place : Offset} {text : String}
    {fs : List Fragment} :
    c.takeToken table owner place text = .ok (fs, c') ↔
      ∃ gs d position, c.advanceTo table place = .ok (gs, d) ∧
        table.slice? (.ofLength place text.utf8ByteSize) = some text ∧
        table.position? place = some position ∧ fs = gs ++ [⟨.token owner text, position⟩] ∧
        c' = ⟨place.advance text.utf8ByteSize, d.pending⟩ := by
  rw [takeToken, bind_eq_ok_iff]
  constructor
  · rintro ⟨⟨gs, d⟩, hadvance, h⟩
    dsimp only at h
    split at h
    · simp [misplaced] at h
    rename_i found hfound
    split at h
    · rename_i heq
      rw [bind_eq_ok_iff] at h
      obtain ⟨position, hposition, h⟩ := h
      rw [pure_eq_ok_iff, Prod.mk.injEq] at h
      obtain ⟨rfl, rfl⟩ := h
      exact ⟨gs, d, position, hadvance, by rw [hfound, heq],
        LineTable.resolve_eq_ok_iff.1 hposition, rfl, rfl⟩
    · simp [misplaced] at h
  · rintro ⟨gs, d, position, hadvance, hslice, hposition, rfl, rfl⟩
    refine ⟨(gs, d), hadvance, ?_⟩
    dsimp only
    rw [hslice]
    dsimp only
    rw [if_pos rfl, bind_eq_ok_iff]
    exact ⟨position, LineTable.resolve_eq_ok_iff.2 hposition, rfl⟩

/-- A construct that starts has a mark, and it is no deeper than the options allow. -/
theorem step_enter {kind : NodeKind} {place : Offset} {depth : Nat} {fs : List Fragment}
    (h : c.step options table (.enter kind place depth) = .ok (fs, c')) :
    depth ≤ options.maxDepth ∧ c.markAt table place (.nodeStart kind) = .ok (fs, c') := by
  rw [step] at h
  split at h
  · cases h
  · exact ⟨Nat.not_lt.1 ‹_›, h⟩

/-- A checkpoint leaves the cursor where it is, and it is a fragment if checkpoints are shown. -/
theorem step_checkpoint {owner : NodeKind} {label : String} {fs : List Fragment}
    (h : c.step options table (.checkpoint owner label) = .ok (fs, c')) : c' = c ∧
      (options.checkpoints = true ∧
        (∃ position, table.position? c.place = some position ∧
          fs = [⟨.checkpoint owner label, position⟩]) ∨
        options.checkpoints = false ∧ fs = []) := by
  rw [step] at h
  split at h
  · rename_i hshown
    obtain ⟨position, hposition, h⟩ := bind_eq_ok_iff.1 h
    obtain ⟨rfl, rfl⟩ := Prod.mk.inj (pure_eq_ok_iff.1 h)
    exact ⟨rfl, .inl ⟨hshown, position, LineTable.resolve_eq_ok_iff.1 hposition, rfl⟩⟩
  · rename_i hshown
    obtain ⟨rfl, rfl⟩ := Prod.mk.inj (pure_eq_ok_iff.1 h)
    exact ⟨rfl, .inr ⟨Bool.not_eq_true _ ▸ hshown, rfl⟩⟩

end Cursor

/-- A trace is a run through the events of the file that leaves no comment over. -/
theorem File.trace_eq_ok_iff {file : File} {table : LineTable} {options : Options}
    {fragments : List Fragment} :
    file.trace table options = .ok fragments ↔
      ∃ c, (Cursor.atStart file.comments).Runs options table file.events fragments c ∧
        c.pending = [] := by
  rw [trace, bind_eq_ok_iff]
  constructor
  · rintro ⟨⟨made, c⟩, hrun, h⟩
    rw [bind_eq_ok_iff] at h
    obtain ⟨_, hfinish, h⟩ := h
    obtain ⟨fs, hruns, rfl⟩ := Cursor.run_eq_ok_iff.1 hrun
    rw [pure_eq_ok_iff] at h
    refine ⟨c, ?_, ?_⟩
    · simpa [← h] using hruns
    · unfold Cursor.finish at hfinish
      split at hfinish
      · assumption
      · simp [misplaced] at hfinish
  · rintro ⟨c, hruns, hpending⟩
    refine ⟨(#[] ++ fragments.toArray, c), Cursor.run_eq_ok_iff.2 ⟨fragments, hruns, by simp⟩, ?_⟩
    rw [bind_eq_ok_iff]
    exact ⟨(), by simp only [Cursor.finish, hpending], by simp [pure, Except.pure]⟩

end GoTrace
