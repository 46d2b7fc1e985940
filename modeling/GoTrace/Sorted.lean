/-!
# Counting in a sorted array

`Sorted.countUpTo` finds, by halving an interval, how many entries of an increasing array are at
most a given number. Both look-ups of the library rest on it: the line of a byte offset is the
number of lines that start at or before it, and a character has a property iff an odd number of the
property's boundaries lie at or below its code point.

The halving keeps two facts: every entry below the interval is at most the bound, every entry from
its end on is above it. `countUpTo_spec` is what they say once the interval is empty.
-/

namespace GoTrace.Sorted

/-- No entry is larger than a later one. -/
def Increasing (a : Array Nat) : Prop :=
  ∀ i j (hj : j < a.size) (hij : i < j), a[i] ≤ a[j]

/-- The number of entries of the increasing array `a` that are at most `n`. -/
def countUpTo (a : Array Nat) (n : Nat) : Nat :=
  go 0 a.size (Nat.le_refl _)
where
  /-- The count, which is known to lie between `lo` and `hi`. -/
  go (lo hi : Nat) (hhi : hi ≤ a.size) : Nat :=
    if h : lo < hi then
      let mid := (lo + hi) / 2
      if a[mid] ≤ n then go (mid + 1) hi hhi else go lo mid (by omega)
    else lo
  termination_by hi - lo

private theorem go_spec {a : Array Nat} (ha : Increasing a) (n lo hi : Nat) (hhi : hi ≤ a.size)
    (hlo : lo ≤ hi) (below : ∀ i (h : i < a.size), i < lo → a[i] ≤ n)
    (above : ∀ i (h : i < a.size), hi ≤ i → n < a[i]) :
    countUpTo.go a n lo hi hhi ≤ a.size ∧
      ∀ i (h : i < a.size), i < countUpTo.go a n lo hi hhi ↔ a[i] ≤ n := by
  fun_induction countUpTo.go a n lo hi hhi with
  | case1 lo hi hhi h mid hle ih =>
    refine ih (by omega) (fun i hi' hlt => ?_) above
    rcases Nat.lt_or_eq_of_le (Nat.le_of_lt_succ hlt) with h' | rfl
    · exact Nat.le_trans (ha i mid (by omega) h') hle
    · exact hle
  | case2 lo hi hhi h mid hgt ih =>
    refine ih (by omega) below (fun i hi' hge => ?_)
    rcases Nat.lt_or_eq_of_le hge with h' | rfl
    · exact Nat.lt_of_lt_of_le (Nat.lt_of_not_le hgt) (ha mid i hi' h')
    · exact Nat.lt_of_not_le hgt
  | case3 lo hi hhi h =>
    obtain rfl : lo = hi := by omega
    refine ⟨hhi, fun i hi' => ⟨below i hi', fun hle => ?_⟩⟩
    exact Nat.lt_of_not_le fun hge => Nat.lt_irrefl _ (Nat.lt_of_lt_of_le (above i hi' hge) hle)

/-- **The count splits an increasing array**: exactly the entries in front of it are at most the
bound. -/
theorem countUpTo_spec {a : Array Nat} (ha : Increasing a) (n : Nat) :
    countUpTo a n ≤ a.size ∧ ∀ i (h : i < a.size), i < countUpTo a n ↔ a[i] ≤ n :=
  go_spec ha n 0 a.size (Nat.le_refl _) (Nat.zero_le _) (fun _ _ h => absurd h (by omega))
    (fun _ _ h => absurd h (by omega))

end GoTrace.Sorted
