import Mathlib.Data.List.DropRight
import GoTrace.Proofs.Source.LineColumn

/-!
# Positions of offsets

The places of a text that have a position are its cuts, and the position of a cut is told by counting
in front of it: the newlines give the line, and the bytes behind the last of them the column. So
positions are in the order of their offsets, and each leads back to its offset by way of the start of
its line.

The look-up works with numbers of any size. `LineTable.wordPosition?` is the same calculation in words
of 32 bits, where each step may fail; in a text that is shorter than the largest offset none does
(`LineTable.wordPosition?_eq`).
-/

namespace GoTrace

open String (utf8Len)

/-! ## Counting in front of a cut -/

/-- Lines are counted by newlines, and columns by the bytes behind the last of them. -/
theorem lineColumn_eq_count (front : List Char) :
    lineColumn front =
      (1 + front.count '\n', 1 + utf8Len (front.rtakeWhile (· != '\n'))) := by
  induction front using List.reverseRecOn with
  | nil => rfl
  | append_singleton front c ih =>
    rw [lineColumn_concat, ih, nextLineColumn, List.rtakeWhile_concat, List.count_append]
    by_cases hc : c = '\n'
    · rw [if_pos hc, hc, if_neg (by simp)]
      rfl
    · rw [if_neg hc, if_pos (by simpa using hc), List.count_singleton, if_neg (by simpa using hc),
        String.utf8Len_append, String.utf8Len_cons, String.utf8Len_nil, Nat.zero_add, Nat.add_zero,
        Nat.add_assoc]

/-- A line and column is in front of another: on an earlier line, or further left on the same. -/
def IsBefore (p q : Nat × Nat) : Prop := p.1 < q.1 ∨ p.1 = q.1 ∧ p.2 < q.2

instance (p q : Nat × Nat) : Decidable (IsBefore p q) := inferInstanceAs (Decidable (_ ∨ _))

theorem isBefore_nextLineColumn (p : Nat × Nat) (c : Char) : IsBefore p (nextLineColumn p c) := by
  have hc := c.utf8Size_pos
  rw [nextLineColumn]
  split
  · exact .inl (Nat.lt_succ_self _)
  · exact .inr ⟨rfl, Nat.lt_add_of_pos_right hc⟩

theorem IsBefore.trans {p q r : Nat × Nat} (h : IsBefore p q) (h' : IsBefore q r) :
    IsBefore p r := by
  unfold IsBefore at *
  omega

/-- Reading on leads to later lines and columns. -/
theorem isBefore_foldl (p : Nat × Nat) (c : Char) (cs : List Char) :
    IsBefore p ((c :: cs).foldl nextLineColumn p) := by
  induction cs generalizing p c with
  | nil => exact isBefore_nextLineColumn p c
  | cons d cs ih => exact (isBefore_nextLineColumn p c).trans (ih (nextLineColumn p c) d)

/-! ## Words -/

/-- A number, if it fits a word of 32 bits. -/
def word? (n : Nat) : Option Nat := if n ≤ maxOffset then some n else none

/-- What is left of `m` when `n` is taken away, if that is not more than there is. -/
def difference? (m n : Nat) : Option Nat := if n ≤ m then some (m - n) else none

theorem word?_eq {n : Nat} (h : n ≤ maxOffset) : word? n = some n := if_pos h

theorem difference?_eq {m n : Nat} (h : n ≤ m) : difference? m n = some (m - n) := if_pos h

theorem mapM_word? {ns : List Nat} (h : ∀ n ∈ ns, n ≤ maxOffset) : ns.mapM word? = some ns := by
  induction ns with
  | nil => rfl
  | cons n ns ih =>
    rw [List.forall_mem_cons] at h
    rw [List.mapM_cons, word?_eq h.1, ih h.2]
    rfl

namespace LineTable

/-- The starts of the lines as words. -/
def wordStarts? (t : LineTable) : Option (List Nat) := t.starts.toList.mapM word?

/-- The line and column of an offset that lies between two characters, in words: nothing if a number
does not fit a word, if more is taken away than there is, or if there is no start to look up. -/
def wordPosition? (t : LineTable) (place : Offset) : Option (Nat × Nat) := do
  let starts ← t.wordStarts?
  let index ← difference? (Sorted.countUpTo starts.toArray place.toNat) 1
  let start ← starts[index]?
  let line ← word? (index + 1)
  let column ← word? ((← difference? place.toNat start) + 1)
  return (line, column)

variable {t : LineTable} {front back : List Char} {place : Offset}

/-- No line starts behind the end of the text. -/
theorem le_size_of_mem_starts {n : Nat} (h : n ∈ t.starts.toList) : n ≤ t.size := by
  rw [starts_eq_newlineEnds] at h
  rcases List.mem_cons.1 h with rfl | h
  · exact Nat.zero_le _
  · have hle := (bounds_of_mem_newlineEnds h).2
    rwa [Nat.zero_add, ← utf8ByteSize_eq] at hle

/-- There is one line more than there are newlines. -/
theorem lineCount_eq : t.lineCount = 1 + t.text.toList.count '\n' := by
  rw [lineCount, starts_eq_newlineEnds, List.size_toArray, List.length_cons, length_newlineEnds,
    Nat.add_comm]

/-- A text that words can address has starts that fit words. -/
theorem wordStarts?_eq (h : t.size ≤ maxOffset) : t.wordStarts? = some t.starts.toList :=
  mapM_word? fun _ hn => Nat.le_trans (le_size_of_mem_starts hn) h

/-- The line that goes on behind a cut starts where the last newline in front of the cut ends. -/
theorem getElem?_starts (h : t.text.toList = front ++ back) :
    t.starts[front.count '\n']? = some (lastStart front) := by
  have hlt : front.count '\n' < t.starts.size := by
    have hcount := lineCount_eq (t := t)
    rw [h, List.count_append, lineCount] at hcount
    omega
  have hstart := getElem_starts h
  rw [Array.getElem?_eq_getElem hlt, Option.getD_some] at hstart
  rw [Array.getElem?_eq_getElem hlt, hstart]

/-- **No step of a look-up leaves the words or the starts**, and what it finds is the position. -/
theorem wordPosition?_eq (hsize : t.size < maxOffset) (h : t.text.toList = front ++ back)
    (hplace : utf8Len front = place.toNat) : t.wordPosition? place = some (lineColumn front) := by
  obtain ⟨hlineColumn, hle⟩ := lineColumn_eq front
  have hfront : utf8Len front + utf8Len back = t.size := by
    rw [size, utf8ByteSize_eq, h, String.utf8Len_append]
  have hlines : front.count '\n' ≤ utf8Len front :=
    Nat.le_trans List.count_le_length (length_le_utf8Len front)
  have hstart : t.starts.toList[front.count '\n']? = some (lastStart front) := by
    rw [Array.getElem?_toList]
    exact getElem?_starts h
  have hline : front.count '\n' + 1 ≤ maxOffset := by omega
  have hcolumn : utf8Len front - lastStart front + 1 ≤ maxOffset := by omega
  rw [wordPosition?, wordStarts?_eq (Nat.le_of_lt hsize), ← hplace, hlineColumn]
  simp only [Option.bind_eq_bind, Option.bind_some, Array.toArray_toList, countUpTo_starts h,
    difference?_eq (Nat.le_add_right 1 _), Nat.add_sub_cancel_left, hstart, word?_eq hline,
    difference?_eq hle, word?_eq hcolumn]
  rw [Nat.add_comm 1]
  rfl

/-- The offset is found again from the start of its line. -/
theorem advance_lineStart? (h : t.text.toList = front ++ back)
    (hplace : utf8Len front = place.toNat) :
    (t.lineStart? (lineColumn front).1).map (·.advance ((lineColumn front).2 - 1)) =
      some place := by
  obtain ⟨hlineColumn, hle⟩ := lineColumn_eq front
  have hmax := place.le_max
  rw [hlineColumn, Nat.add_comm 1, lineStart?, getElem?_starts h, Option.map_some, Option.map_some,
    Option.some.injEq]
  ext
  simp only [Offset.toNat_advance, Offset.toNat_ofNat]
  omega

/-- A text has exactly the lines from one to the number of its lines. -/
theorem isSome_lineStart?_iff {line : Nat} :
    (t.lineStart? line).isSome ↔ 1 ≤ line ∧ line ≤ t.lineCount := by
  cases line with
  | zero => simp [lineStart?]
  | succ line =>
    rw [lineStart?, Option.isSome_map, Option.isSome_iff_ne_none, Ne,
      Array.getElem?_eq_none_iff, lineCount]
    omega

/-- A position is that of a cut, and tells what stands in front of the cut. -/
theorem position?_eq_some_iff {p : Position} : t.position? place = some p ↔
    ∃ front back, t.text.toList = front ++ back ∧ utf8Len front = place.toNat ∧
      p = ⟨1 + front.count '\n', 1 + utf8Len (front.rtakeWhile (· != '\n')), place⟩ := by
  constructor
  · intro h
    obtain ⟨front, back, htext, hplace⟩ := position?_isSome_iff.1 (Option.isSome_of_mem h)
    refine ⟨front, back, htext, hplace, ?_⟩
    rw [position?_eq_lineColumn htext hplace, Option.some.injEq, lineColumn_eq_count] at h
    exact h.symm
  · rintro ⟨front, back, htext, hplace, rfl⟩
    rw [position?_eq_lineColumn htext hplace, lineColumn_eq_count]

/-- Positions are in the order of their offsets. -/
theorem isBefore_of_lt {place' : Offset} {p p' : Position} (h : t.position? place = some p)
    (h' : t.position? place' = some p') (hlt : place < place') :
    IsBefore (p.line, p.column) (p'.line, p'.column) := by
  obtain ⟨front, back, htext, hplace, rfl⟩ := position?_eq_some_iff.1 h
  obtain ⟨front', back', htext', hplace', rfl⟩ := position?_eq_some_iff.1 h'
  rw [Offset.lt_def, ← hplace, ← hplace'] at hlt
  dsimp only
  rw [← lineColumn_eq_count, ← lineColumn_eq_count]
  rcases List.append_eq_append_iff.1 (htext.symm.trans htext') with ⟨e, rfl, -⟩ | ⟨e, rfl, -⟩
  · cases e with
    | nil =>
      rw [List.append_nil] at hlt
      exact absurd hlt (Nat.lt_irrefl _)
    | cons c e =>
      rw [lineColumn_append]
      exact isBefore_foldl _ c e
  · rw [String.utf8Len_append] at hlt
    omega

end LineTable

/-- **Positions of offsets.** In a text that is shorter than the largest offset, an offset has a
position iff it is a cut of the text. The line of a position is one more than the newlines in front
of the cut, its column one more than the bytes behind the last of these, and it carries the offset,
which is also found again from the start of the line. So positions are in the order of their offsets.
The look-up can be done in words of 32 bits, without a number that does not fit or an index out of
range, and the lines that have a start are those from one to the number of lines. -/
theorem positions_of_text (text : String) (hsize : text.utf8ByteSize < maxOffset) :
    let t := LineTable.ofString text
    (∀ place p, t.position? place = some p ↔ ∃ front back, text.toList = front ++ back ∧
      utf8Len front = place.toNat ∧
      p = ⟨1 + front.count '\n', 1 + utf8Len (front.rtakeWhile (· != '\n')), place⟩) ∧
    (∀ place p, t.position? place = some p →
      (t.lineStart? p.line).map (·.advance (p.column - 1)) = some place) ∧
    (∀ place place' p p', t.position? place = some p → t.position? place' = some p' →
      place < place' → IsBefore (p.line, p.column) (p'.line, p'.column)) ∧
    (∀ place p, t.position? place = some p → t.wordPosition? place = some (p.line, p.column)) ∧
    ∀ line, (t.lineStart? line).isSome ↔ 1 ≤ line ∧ line ≤ t.lineCount := by
  intro t
  refine ⟨fun place p => LineTable.position?_eq_some_iff, fun place p h => ?_,
    fun place place' p p' => LineTable.isBefore_of_lt, fun place p h => ?_,
    fun line => LineTable.isSome_lineStart?_iff⟩
  · obtain ⟨front, back, htext, hplace, rfl⟩ := LineTable.position?_eq_some_iff.1 h
    have hstart := LineTable.advance_lineStart? htext hplace
    rwa [lineColumn_eq_count] at hstart
  · obtain ⟨front, back, htext, hplace, rfl⟩ := LineTable.position?_eq_some_iff.1 h
    rw [LineTable.wordPosition?_eq (t := t) hsize htext hplace, lineColumn_eq_count]

/-- A text with an empty line, a character of two bytes, and a newline at its end. -/
def accentText : String := "a\n\né x\n"

/-- In `accentText` the second byte of the accent has no position, and the character behind it stands
on the third line, in the third column. -/
theorem positions_of_accentText : accentText.utf8ByteSize < maxOffset ∧
    (LineTable.ofString accentText).position? (.ofNat 4) = none ∧
    (LineTable.ofString accentText).position? (.ofNat 5) = some ⟨3, 3, .ofNat 5⟩ ∧
    (LineTable.ofString accentText).wordPosition? (.ofNat 5) = some (3, 3) ∧
    ((LineTable.ofString accentText).lineStart? 3).map (·.advance 2) = some (.ofNat 5) ∧
    ((LineTable.ofString accentText).lineStart? 5).isSome = false := by
  have hsize : accentText.utf8ByteSize < maxOffset := by decide
  obtain ⟨hposition, hstart, -, hwords, hlines⟩ := positions_of_text accentText hsize
  have hat : (LineTable.ofString accentText).position? (.ofNat 5) = some ⟨3, 3, .ofNat 5⟩ :=
    (hposition _ _).2 ⟨['a', '\n', '\n', 'é'], [' ', 'x', '\n'], by decide, by decide, by decide⟩
  refine ⟨hsize, by decide +kernel, hat, hwords _ _ hat, hstart _ _ hat, ?_⟩
  rw [Bool.eq_false_iff, Ne, hlines]
  decide +kernel

end GoTrace
