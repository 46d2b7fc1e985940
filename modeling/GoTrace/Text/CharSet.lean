import GoTrace.Sorted

/-!
# Sets of characters

A set of characters is kept as the increasing list of the code points at which membership changes:
the first entry begins a run of members, the second ends it, and so on. A character is a member iff
an odd number of these boundaries lie at or below its code point, which `Sorted.countUpTo` counts by
halving. Unicode properties of some hundred thousand characters fit in a few hundred boundaries.
-/

namespace GoTrace

/-- A set of characters, by the code points at which membership changes. -/
structure CharSet where
  /-- The boundaries, in increasing order; members lie from the first to before the second, from the
  third to before the fourth, and so on. -/
  boundaries : Array Nat

namespace CharSet

/-- Whether `c` is a member: an odd number of boundaries lie at or below it. -/
def contains (s : CharSet) (c : Char) : Bool :=
  Sorted.countUpTo s.boundaries c.toNat % 2 == 1

end CharSet

end GoTrace
