import Mathlib.Data.List.Induction
import GoTrace.Proofs.Source.Slice

/-!
# Lines and columns, one character at a time

A table finds the line and column of an offset by halving among the line starts. Read from the
front, a text gives the same two numbers: a newline goes on to column one of the next line, and any
other character moves the column on by its bytes. `position?_eq_lineColumn` is the equality; it is
what lets a text be written again from the positions of its parts.
-/

namespace GoTrace

open String (utf8Len)

/-! ## Reading from the front -/

/-- The line and column behind one more character. -/
def nextLineColumn (p : Nat × Nat) (c : Char) : Nat × Nat :=
  if c = '\n' then (p.1 + 1, 1) else (p.1, p.2 + c.utf8Size)

/-- The line and column behind some characters of a text, which begins at line and column one. -/
def lineColumn (front : List Char) : Nat × Nat := front.foldl nextLineColumn (1, 1)

/-- The line and column behind one more character are worked out from those in front of it. -/
theorem lineColumn_concat (front : List Char) (c : Char) :
    lineColumn (front ++ [c]) = nextLineColumn (lineColumn front) c := by
  rw [lineColumn, List.foldl_append]
  rfl

/-- The line and column behind two stretches of text. -/
theorem lineColumn_append (front back : List Char) :
    lineColumn (front ++ back) = back.foldl nextLineColumn (lineColumn front) := by
  rw [lineColumn, List.foldl_append, lineColumn]

/-! ## The starts of lines -/

/-- The offsets behind the newlines of a text of which `n` bytes are in front. -/
def newlineEnds : List Char → Nat → List Nat
  | [], _ => []
  | c :: cs, n =>
    if c = '\n' then (n + c.utf8Size) :: newlineEnds cs (n + c.utf8Size)
    else newlineEnds cs (n + c.utf8Size)

private theorem lineStartsFrom_eq (cs : List Char) (n : Nat) (starts : Array Nat) :
    lineStartsFrom cs n starts = starts ++ (newlineEnds cs n).toArray := by
  induction cs generalizing n starts with
  | nil => simp [lineStartsFrom, newlineEnds]
  | cons c cs ih =>
    rw [lineStartsFrom, ih, newlineEnds]
    split <;> simp

theorem newlineEnds_append (a b : List Char) (n : Nat) :
    newlineEnds (a ++ b) n = newlineEnds a n ++ newlineEnds b (n + utf8Len a) := by
  induction a generalizing n with
  | nil => simp [newlineEnds]
  | cons c a ih =>
    have hn : n + utf8Len (c :: a) = n + c.utf8Size + utf8Len a := by
      rw [String.utf8Len_cons]
      omega
    rw [List.cons_append, newlineEnds, newlineEnds, ih, hn]
    split <;> simp

theorem length_newlineEnds (cs : List Char) (n : Nat) :
    (newlineEnds cs n).length = cs.count '\n' := by
  induction cs generalizing n with
  | nil => rfl
  | cons c cs ih =>
    rw [newlineEnds, List.count_cons]
    split <;> simp_all

/-- The offset behind a newline lies behind the newline and not behind the text. -/
theorem bounds_of_mem_newlineEnds {cs : List Char} {n k : Nat} (h : k ∈ newlineEnds cs n) :
    n < k ∧ k ≤ n + utf8Len cs := by
  induction cs generalizing n with
  | nil => simp [newlineEnds] at h
  | cons c cs ih =>
    have hc := c.utf8Size_pos
    rw [newlineEnds] at h
    rw [String.utf8Len_cons]
    split at h
    · rcases List.mem_cons.1 h with rfl | h
      · omega
      · have := ih h
        omega
    · have := ih h
      omega

private theorem pairwise_newlineEnds (cs : List Char) (n : Nat) :
    (n :: newlineEnds cs n).Pairwise (· < ·) := by
  induction cs generalizing n with
  | nil => simp [newlineEnds]
  | cons c cs ih =>
    refine List.pairwise_cons.2 ⟨fun k hk => (bounds_of_mem_newlineEnds hk).1, ?_⟩
    rw [newlineEnds]
    split
    · exact ih _
    · exact (ih _).of_cons

/-- The start of the line on which the text behind some characters goes on. -/
def lastStart (front : List Char) : Nat := (newlineEnds front 0).getLast?.getD 0

/-- Lines are counted by newlines, and columns by the bytes since the last line start. -/
theorem lineColumn_eq (front : List Char) :
    lineColumn front = (1 + front.count '\n', utf8Len front - lastStart front + 1) ∧
      lastStart front ≤ utf8Len front := by
  induction front using List.reverseRecOn with
  | nil => simp [lineColumn, lastStart, newlineEnds]
  | append_singleton front c ih =>
    obtain ⟨hfront, hle⟩ := ih
    rw [lineColumn_concat, hfront, nextLineColumn]
    simp only [lastStart, newlineEnds_append, String.utf8Len_append, Nat.zero_add,
      String.utf8Len_cons, String.utf8Len_nil, List.count_append, newlineEnds] at hle ⊢
    by_cases hc : c = '\n'
    · rw [if_pos hc, if_pos hc, hc]
      simp [Nat.add_assoc]
    · rw [if_neg hc, if_neg hc, List.append_nil]
      have hcount : List.count '\n' [c] = 0 := by simp [hc]
      rw [hcount]
      refine ⟨?_, by omega⟩
      rw [Prod.mk.injEq]
      omega

namespace LineTable

variable {t : LineTable}

theorem starts_eq_newlineEnds :
    t.starts = (0 :: newlineEnds t.text.toList 0).toArray := by
  rw [t.starts_eq, lineStarts, lineStartsFrom_eq]
  simp

private theorem increasing_starts : Sorted.Increasing t.starts := by
  intro i j hj hij
  have hpairs := pairwise_newlineEnds t.text.toList 0
  simp only [starts_eq_newlineEnds, List.getElem_toArray]
  exact Nat.le_of_lt (List.pairwise_iff_getElem.1 hpairs i j _ _ hij)

/-- The lines that start at or before the end of `front` are the first one and those that a newline
of `front` ends. -/
theorem countUpTo_starts {front back : List Char} (h : t.text.toList = front ++ back) :
    Sorted.countUpTo t.starts (utf8Len front) = 1 + front.count '\n' := by
  obtain ⟨hsize, hspec⟩ := Sorted.countUpTo_spec (increasing_starts (t := t)) (utf8Len front)
  have hstarts : t.starts =
      ((0 :: newlineEnds front 0) ++ newlineEnds back (utf8Len front)).toArray := by
    rw [starts_eq_newlineEnds, h, newlineEnds_append]
    simp
  have hlen : (0 :: newlineEnds front 0).length = 1 + front.count '\n' := by
    rw [List.length_cons, length_newlineEnds, Nat.add_comm]
  have hsize' : t.starts.size = 1 + front.count '\n' + back.count '\n' := by
    rw [hstarts, List.size_toArray, List.length_append, hlen, length_newlineEnds]
  -- an entry lies in the count iff it is one of the first `1 + front.count '\n'`
  have hentry : ∀ i, i < t.starts.size →
      (i < Sorted.countUpTo t.starts (utf8Len front) ↔ i < 1 + front.count '\n') := by
    intro i hi
    rw [hspec i hi]
    simp only [hstarts, List.getElem_toArray]
    rw [← hlen]
    constructor
    · intro hle
      by_contra hge
      rw [List.getElem_append_right (by omega)] at hle
      have := (bounds_of_mem_newlineEnds (List.getElem_mem _)).1.trans_le hle
      omega
    · intro hlt
      rw [List.getElem_append_left hlt]
      rcases List.mem_cons.1 (List.getElem_mem hlt) with h0 | hmem
      · omega
      · have := (bounds_of_mem_newlineEnds hmem).2
        omega
  by_contra hne
  rcases Nat.lt_or_gt_of_ne hne with hlt | hgt
  · exact Nat.lt_irrefl _ ((hentry _ (by omega)).2 hlt)
  · exact Nat.lt_irrefl _ ((hentry _ (by omega)).1 hgt)

theorem getElem_starts {front back : List Char} (h : t.text.toList = front ++ back) :
    t.starts[front.count '\n']?.getD 0 = lastStart front := by
  rw [starts_eq_newlineEnds, h, newlineEnds_append, List.getElem?_toArray, ← List.cons_append,
    List.getElem?_append_left (by simp [length_newlineEnds]), ← length_newlineEnds front 0,
    lastStart]
  rcases hends : newlineEnds front 0 with _ | ⟨n, ends⟩
  · rfl
  · rw [List.length_cons, List.getElem?_cons_succ, List.getLast?_eq_getElem?, List.length_cons,
      Nat.add_sub_cancel]

/-- **The position behind some characters** is the line and column that reading them gives. -/
theorem position?_eq_lineColumn {front back : List Char} {place : Offset}
    (h : t.text.toList = front ++ back) (hplace : utf8Len front = place.toNat) :
    t.position? place = some ⟨(lineColumn front).1, (lineColumn front).2, place⟩ := by
  have hvalid : String.Pos.Raw.isValid t.text ⟨place.toNat⟩ = true :=
    isValid_iff_cut.2 ⟨front, back, h, hplace⟩
  rw [position?, if_pos hvalid, ← hplace, countUpTo_starts h]
  dsimp only
  rw [Nat.add_sub_cancel_left, getElem_starts h, (lineColumn_eq front).1]

end LineTable

end GoTrace
