import Mathlib.Data.List.TakeWhile
import Mathlib.Data.String.Basic
import GoTrace.Source.LineTable
import GoTrace.Trace.Gap

/-!
# Slices as cuts of the text

A place of a text is a way to cut its characters in two, and a slice is the middle of a way to cut
them in three. `position?_isSome_iff` and `slice?_eq_some_iff` say so for a `LineTable`; everything
further on about offsets is said with cuts and never with byte arrays. The number of bytes in front
of a cut is `String.utf8Len` of the characters there.
-/

namespace GoTrace

open String (utf8Len)

/-- The bytes of a text are those of its characters. -/
theorem utf8ByteSize_eq (s : String) : s.utf8ByteSize = utf8Len s.toList := by
  rw [← String.utf8ByteSize_ofList, String.ofList_toList]

/-- Each character has a byte. -/
theorem length_le_utf8Len (cs : List Char) : cs.length ≤ utf8Len cs := by
  induction cs with
  | nil => exact Nat.zero_le _
  | cons c cs ih =>
    have hc := c.utf8Size_pos
    rw [List.length_cons, String.utf8Len_cons]
    omega

/-- Two cuts of a list of characters behind as many bytes are the same cut. -/
theorem cut_unique {a b c d : List Char} (h : a ++ b = c ++ d) (hlen : utf8Len a = utf8Len c) :
    a = c ∧ b = d := by
  rcases List.append_eq_append_iff.1 h with ⟨e, rfl, rfl⟩ | ⟨e, rfl, rfl⟩ <;>
  · rw [String.utf8Len_append] at hlen
    obtain rfl := String.utf8Len_eq_zero.1 (by omega : utf8Len e = 0)
    exact ⟨by simp, by simp⟩

/-- A character of whitespace is one byte. -/
theorem utf8Size_of_isSpace {c : Char} (h : Gap.isSpace c) : c.utf8Size = 1 := by
  simp only [Gap.isSpace, Bool.or_eq_true, beq_iff_eq] at h
  rcases h with ((rfl | rfl) | rfl) | rfl <;> rfl

/-- Whitespace has a byte for each character. -/
theorem utf8Len_of_isSpace {w : List Char} (h : ∀ c ∈ w, Gap.isSpace c) : utf8Len w = w.length := by
  induction w with
  | nil => rfl
  | cons c w ih =>
    rw [List.forall_mem_cons] at h
    rw [String.utf8Len_cons, ih h.2, utf8Size_of_isSpace h.1, List.length_cons]

/-- Without a newline there is nothing behind the characters in front of one. -/
theorem dropWhile_of_not_mem_newline {w : List Char} (h : '\n' ∉ w) :
    w.dropWhile (· != '\n') = [] := by
  rw [List.dropWhile_eq_nil_iff]
  intro c hc
  rw [bne_iff_ne]
  rintro rfl
  exact h hc

/-- The first newline is found behind the characters in front of it. -/
theorem span_newline {v rest : List Char} (hv : '\n' ∉ v) :
    (v ++ '\n' :: rest).takeWhile (· != '\n') = v ∧
      (v ++ '\n' :: rest).dropWhile (· != '\n') = '\n' :: rest := by
  have hne : ∀ c ∈ v, (c != '\n') = true := by
    intro c hc
    rw [bne_iff_ne]
    rintro rfl
    exact hv hc
  rw [List.takeWhile_append_of_pos hne, List.dropWhile_append_of_pos hne,
    List.takeWhile_cons_of_neg (by simp), List.dropWhile_cons_of_neg (by simp), List.append_nil]
  exact ⟨rfl, rfl⟩

/-- A newline is one byte. -/
theorem utf8Len_newline {v rest : List Char} :
    utf8Len (v ++ '\n' :: rest) = utf8Len v + 1 + utf8Len rest := by
  rw [String.utf8Len_append, String.utf8Len_cons, Nat.add_comm (utf8Len rest), ← Nat.add_assoc]
  rfl

/-- A character boundary that is found at `n` has `n` as its offset. -/
private theorem pos?_eq_some_iff {s : String} {n : Nat} {p : s.Pos} :
    s.pos? ⟨n⟩ = some p ↔ p.offset.byteIdx = n := by
  rw [String.pos?, String.Slice.pos?]
  constructor
  · intro h
    split at h
    · rw [Option.map_some, Option.some.injEq] at h
      rw [← h]
      simp
    · simp at h
  · intro h
    have hvalid : String.Pos.Raw.isValidForSlice s.toSlice ⟨n⟩ = true := by
      rw [String.Pos.Raw.isValidForSlice_eq_true_iff, String.Pos.Raw.isValidForSlice_toSlice_iff, ← h]
      exact p.isValid
    rw [dif_pos hvalid, Option.map_some, Option.some.injEq]
    ext
    simp [h]

/-- A text has a character boundary at `n` iff it can be cut behind `n` bytes. -/
theorem isValid_iff_cut {s : String} {n : Nat} :
    String.Pos.Raw.isValid s ⟨n⟩ = true ↔ ∃ a b, s.toList = a ++ b ∧ utf8Len a = n := by
  rw [String.Pos.Raw.isValid_eq_true_iff, String.Pos.Raw.isValid_iff_exists_append]
  constructor
  · rintro ⟨a, b, rfl, hn⟩
    refine ⟨a.toList, b.toList, String.toList_append, ?_⟩
    rw [← utf8ByteSize_eq, ← String.byteIdx_rawEndPos, ← hn]
  · rintro ⟨a, b, hs, hn⟩
    refine ⟨String.ofList a, String.ofList b, ?_, ?_⟩
    · rw [← String.ofList_append, ← hs, String.ofList_toList]
    · rw [String.Pos.Raw.ext_iff, String.byteIdx_rawEndPos, String.utf8ByteSize_ofList, hn]

/-- The text between two boundaries. -/
theorem exists_cut {text : String} {m n : Nat} (hm : String.Pos.Raw.isValid text ⟨m⟩)
    (hn : String.Pos.Raw.isValid text ⟨n⟩) (hle : m ≤ n) : ∃ front w rest,
      text.toList = front ++ w ++ rest ∧ utf8Len front = m ∧ utf8Len (front ++ w) = n := by
  obtain ⟨a, b, hab, rfl⟩ := isValid_iff_cut.1 hm
  obtain ⟨c, d, hcd, rfl⟩ := isValid_iff_cut.1 hn
  rcases List.append_eq_append_iff.1 (hab.symm.trans hcd) with ⟨e, rfl, rfl⟩ | ⟨e, rfl, rfl⟩
  · exact ⟨a, e, d, hcd, rfl, rfl⟩
  · -- what is behind the second boundary and in front of the first is nothing
    rw [String.utf8Len_append] at hle
    obtain rfl := String.utf8Len_eq_zero.1 (by omega : utf8Len e = 0)
    exact ⟨c, [], b, by simpa using hcd, by simp, by simp⟩

namespace LineTable

variable {t : LineTable}

/-- A slice lies between two character boundaries in order. -/
private theorem slice?_eq_some_iff_copy {span : Span} {m : String} :
    t.slice? span = some m ↔
      ∃ p q : t.text.Pos, p.offset.byteIdx = span.start.toNat ∧
        q.offset.byteIdx = span.stop.toNat ∧ ∃ h, (t.text.slice p q h).copy = m := by
  rw [slice?]
  constructor
  · intro h
    split at h
    · rename_i p q hp hq
      split at h
      · rename_i hle
        rw [Option.some.injEq, String.extract_eq_copy_slice p q hle] at h
        exact ⟨p, q, pos?_eq_some_iff.1 hp, pos?_eq_some_iff.1 hq, hle, h⟩
      · simp at h
    · simp at h
  · rintro ⟨p, q, hp, hq, hle, rfl⟩
    rw [pos?_eq_some_iff.2 hp, pos?_eq_some_iff.2 hq]
    dsimp only
    rw [if_pos hle, String.extract_eq_copy_slice p q hle]

/-- **A slice is the middle of a cut in three**, the ends of which lie at the ends of the span. -/
theorem slice?_eq_some_iff {span : Span} {m : String} :
    t.slice? span = some m ↔
      ∃ a b, t.text.toList = a ++ m.toList ++ b ∧ utf8Len a = span.start.toNat ∧
        utf8Len a + utf8Len m.toList = span.stop.toNat := by
  rw [slice?_eq_some_iff_copy]
  constructor
  · rintro ⟨p, q, hp, hq, h⟩
    obtain ⟨a, b, hleft, hright⟩ := String.copy_slice_eq_iff_splits.1 h
    refine ⟨a.toList, b.toList, ?_, ?_, ?_⟩
    · rw [hright.eq_append, String.toList_append, String.toList_append]
    · rw [← hp, hleft.offset_eq_rawEndPos, String.byteIdx_rawEndPos, utf8ByteSize_eq]
    · rw [← hq, hright.offset_eq_rawEndPos, String.byteIdx_rawEndPos, String.utf8ByteSize_append,
        utf8ByteSize_eq, utf8ByteSize_eq]
  · rintro ⟨a, b, htext, ha, hm⟩
    have htext' : t.text = String.ofList a ++ m ++ String.ofList b := by
      rw [← String.ofList_toList (s := t.text), htext, String.ofList_append, String.ofList_append,
        String.ofList_toList]
    have hleft := String.Pos.splits_ofEqAppend (htext'.trans (String.append_assoc ..))
    have hright := String.Pos.splits_ofEqAppend htext'
    refine ⟨_, _, ?_, ?_, String.copy_slice_eq_iff_splits.2 ⟨_, _, hleft, hright⟩⟩
    · rw [hleft.offset_eq_rawEndPos, String.byteIdx_rawEndPos, String.utf8ByteSize_ofList, ha]
    · rw [hright.offset_eq_rawEndPos, String.byteIdx_rawEndPos, String.utf8ByteSize_append,
        String.utf8ByteSize_ofList, utf8ByteSize_eq, hm]

/-- A text that stands behind some characters is the slice there, if its end is an offset. -/
theorem slice?_ofLength {place : Offset} {m : String} {front rest : List Char}
    (htext : t.text.toList = front ++ m.toList ++ rest) (hfront : utf8Len front = place.toNat)
    (hmax : place.toNat + m.utf8ByteSize ≤ maxOffset) :
    t.slice? (.ofLength place m.utf8ByteSize) = some m := by
  refine slice?_eq_some_iff.2 ⟨front, rest, htext, hfront, ?_⟩
  rw [hfront, ← utf8ByteSize_eq]
  exact (Nat.min_eq_left hmax).symm

/-- An offset has a position iff the text can be cut there. -/
theorem position?_isSome_iff {place : Offset} :
    (t.position? place).isSome ↔ ∃ a b, t.text.toList = a ++ b ∧ utf8Len a = place.toNat := by
  rw [position?, ← isValid_iff_cut]
  split <;> simp_all

/-- A position carries the offset that was looked up. -/
theorem offset_of_position? {place : Offset} {p : Position} (h : t.position? place = some p) :
    p.offset = place := by
  rw [position?] at h
  split at h
  · rw [Option.some.injEq] at h
    rw [← h]
  · simp at h

end LineTable

end GoTrace
