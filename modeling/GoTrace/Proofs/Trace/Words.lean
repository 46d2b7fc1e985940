import GoTrace.Proofs.Layout.Events
import GoTrace.Proofs.Trace.Account

/-!
# The tokens of a trace

The token fragments of a trace are the token events of its layout, in order: a gap has no tokens,
and a step adds one for a token event and none for any other.
-/

namespace GoTrace

/-- The place and the text of a token fragment. -/
def Fragment.word? (f : Fragment) : Option (Offset × String) :=
  match f.mark with
  | .token _ text => some (f.position.offset, text)
  | _ => none

/-- Only tokens have a word. -/
theorem Fragment.word?_eq_none {f : Fragment} (h : f.mark.kind ≠ .token) : f.word? = none := by
  rw [word?]
  split
  · rename_i hmark
    rw [hmark] at h
    exact absurd rfl h
  · rfl

/-- What belongs to no construct is no token. -/
theorem Fragment.word?_of_unowned {f : Fragment} (h : f.mark.construct? = none) :
    f.word? = none := by
  refine word?_eq_none fun hkind => ?_
  rw [Mark.construct?_eq_none_iff, hkind] at h
  cases h

variable {options : Options} {table : LineTable} {c c' : Cursor}

/-- Markers are no tokens. -/
theorem words_markers {start : Offset} {w : List Char} {owned : Bool} {gs : List Fragment}
    (h : Gap.markers table start w owned = .ok gs) : gs.filterMap Fragment.word? = [] := by
  refine List.filterMap_eq_nil_iff.2 fun g hg => Fragment.word?_of_unowned ?_
  exact Mark.construct?_of_isLineMarker (isLineMarker_of_markers h g hg)

/-- Moving on adds no tokens. -/
private theorem words_advanceTo {place : Offset} {fs : List Fragment}
    (h : c.advanceTo table place = .ok (fs, c')) : fs.filterMap Fragment.word? = [] := by
  exact List.filterMap_eq_nil_iff.2 fun f hf => Fragment.word?_of_unowned (unowned_advanceTo h f hf)

/-- A mark that is no token adds none. -/
private theorem words_markAt {place : Offset} {m : Mark} {fs : List Fragment}
    (h : c.markAt table place m = .ok (fs, c')) (hm : m.kind ≠ .token) :
    fs.filterMap Fragment.word? = [] := by
  obtain ⟨gs, p, hadvance, -, rfl⟩ := Cursor.markAt_eq_ok_iff.1 h
  rw [List.filterMap_append, words_advanceTo hadvance, List.filterMap_cons,
    Fragment.word?_eq_none hm]
  rfl

/-- **A step adds the token of its event**, if that is one. -/
theorem words_step {event : Event} {fs : List Fragment}
    (h : c.step options table event = .ok (fs, c')) :
    fs.filterMap Fragment.word? = event.word?.toList := by
  cases event with
  | enter kind place depth => exact words_markAt (Cursor.step_enter h).2 MarkKind.noConfusion
  | leave kind place => exact words_markAt h MarkKind.noConfusion
  | token owner place text =>
    obtain ⟨gs, d, p, hadvance, -, hp, rfl, -⟩ := Cursor.takeToken_eq_ok_iff.1 h
    rw [List.filterMap_append, words_advanceTo hadvance, ← LineTable.offset_of_position? hp]
    rfl
  | checkpoint owner label =>
    obtain ⟨-, ⟨-, p, -, rfl⟩ | ⟨-, rfl⟩⟩ := Cursor.step_checkpoint h <;> rfl
  | refuse kind place => simp [Cursor.step] at h

/-- A run adds the tokens of its events, in order. -/
theorem words_runs {events : List Event} {fs : List Fragment}
    (h : c.Runs options table events fs c') :
    fs.filterMap Fragment.word? = Event.words events := by
  induction events generalizing c fs with
  | nil =>
    obtain ⟨rfl, -⟩ := h
    rfl
  | cons event events ih =>
    obtain ⟨gs, d, hs, hstep, hruns, rfl⟩ := h
    rw [List.filterMap_append, words_step hstep, ih hruns, Event.words, Event.words,
      List.filterMap_cons]
    cases event.word? <;> rfl

/-- **The tokens of a trace are those of the events of its file.** -/
theorem words_of_trace {file : File} {fragments : List Fragment}
    (h : file.trace table options = .ok fragments) :
    fragments.filterMap Fragment.word? = Event.words file.events := by
  obtain ⟨c, hruns, -⟩ := File.trace_eq_ok_iff.1 h
  exact words_runs hruns

end GoTrace
