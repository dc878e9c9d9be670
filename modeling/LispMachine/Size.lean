/-!
Sizes. The machine counts what it has in numbers of 64 bits, so a sum of sizes can be too great to
be a size. The values of an array are fewer still: they take fewer than 2^63 bytes, eight for each.
-/

set_option autoImplicit false

namespace LispMachine

/-- A number of things that the machine has. -/
abbrev Size := UInt64

namespace Size

/-- A number as a size, unless it is too great for one. -/
def ofNat? (n : Nat) : Option Size := if n < UInt64.size then some (.ofNat n) else none

/-- The sum of two sizes, unless it is too great for one. -/
def add? (m n : Size) : Option Size := ofNat? (m.toNat + n.toNat)

/-- The difference of two sizes, unless it would be negative. -/
def subtract? (m n : Size) : Option Size := if n ≤ m then some (m - n) else none

/-- The most values that an array can hold. -/
def maxValues : Nat := 0xFFFFFFFFFFFFFFF

theorem ofNat?_eq_some_iff {n : Nat} {size : Size} : ofNat? n = some size ↔ size.toNat = n := by
  unfold ofNat?
  constructor
  · intro hsize
    split at hsize
    · next hn =>
      cases hsize
      exact UInt64.toNat_ofNat_of_lt' hn
    · cases hsize
  · rintro rfl
    rw [if_pos size.toNat_lt, UInt64.ofNat_toNat]

theorem ofNat?_eq_none_iff {n : Nat} : ofNat? n = none ↔ UInt64.size ≤ n := by
  unfold ofNat?
  split
  · next hn => exact iff_of_false (Option.some_ne_none _) (Nat.not_le.mpr hn)
  · next hn => exact iff_of_true rfl (Nat.le_of_not_lt hn)

theorem exists_of_add_lt {m n : Size} (hsum : m.toNat + n.toNat < UInt64.size) :
    ∃ sum, m.add? n = some sum ∧ sum.toNat = m.toNat + n.toNat :=
  have hvalue : (UInt64.ofNat (m.toNat + n.toNat)).toNat = m.toNat + n.toNat :=
    UInt64.toNat_ofNat_of_lt' hsum
  ⟨_, ofNat?_eq_some_iff.mpr hvalue, hvalue⟩

theorem add?_of_le {m n : Size} (hsum : UInt64.size ≤ m.toNat + n.toNat) : m.add? n = none :=
  ofNat?_eq_none_iff.mpr hsum

theorem exists_of_le {m n : Size} (hless : n.toNat ≤ m.toNat) :
    ∃ difference, m.subtract? n = some difference ∧ difference.toNat = m.toNat - n.toNat :=
  have hless : n ≤ m := UInt64.le_iff_toNat_le.mpr hless
  ⟨m - n, if_pos hless, UInt64.toNat_sub_of_le m n hless⟩

end Size

end LispMachine
