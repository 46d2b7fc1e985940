/-!
# Byte offsets

An offset counts the bytes of a text in front of a place. Offsets go up to `maxOffset`, and no
operation leaves that range: one that would ends at `maxOffset` instead. The bound is a field of the
type, so an offset can be read as a number without a second thought.
-/

namespace GoTrace

/-- The largest offset, which is also the length of the longest text that can be read. -/
def maxOffset : Nat := 4294967295

/-- A number of bytes from the beginning of a text. -/
@[ext]
structure Offset where
  /-- The number of bytes in front of the place. -/
  toNat : Nat
  /-- No offset is above the largest one. -/
  le_max : toNat ≤ maxOffset
  deriving DecidableEq

namespace Offset

/-- The offset of byte `n`, or the largest offset if `n` is beyond it. -/
def ofNat (n : Nat) : Offset := ⟨min n maxOffset, Nat.min_le_right _ _⟩

/-- The beginning of a text. -/
def zero : Offset := ⟨0, Nat.zero_le _⟩

instance : Inhabited Offset := ⟨zero⟩

instance : LT Offset := ⟨fun a b => a.toNat < b.toNat⟩

instance : LE Offset := ⟨fun a b => a.toNat ≤ b.toNat⟩

instance (a b : Offset) : Decidable (a < b) := inferInstanceAs (Decidable (a.toNat < b.toNat))

instance (a b : Offset) : Decidable (a ≤ b) := inferInstanceAs (Decidable (a.toNat ≤ b.toNat))

theorem lt_def {a b : Offset} : a < b ↔ a.toNat < b.toNat := Iff.rfl

theorem le_def {a b : Offset} : a ≤ b ↔ a.toNat ≤ b.toNat := Iff.rfl

/-- The offset `n` bytes after `a`, or the largest offset if that is nearer. -/
def advance (a : Offset) (n : Nat) : Offset := ofNat (a.toNat + n)

@[simp]
theorem toNat_ofNat (n : Nat) : (ofNat n).toNat = min n maxOffset := rfl

@[simp]
theorem toNat_zero : zero.toNat = 0 := rfl

@[simp]
theorem toNat_advance (a : Offset) (n : Nat) :
    (a.advance n).toNat = min (a.toNat + n) maxOffset := rfl

end Offset

end GoTrace
