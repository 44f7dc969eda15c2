import Multiport.Table

/-! Attributes of a module that is described rather than written out. A number is stored as a signed
integer of 64 bits, so half of the numbers of that size are read back as negative. -/
namespace Multiport

/-- The value of an attribute. -/
inductive Attribute where
  | int (value : Int)
  | text (value : String)
deriving DecidableEq, Repr

/-- Attributes by name, in the order they were given. -/
abbrev Attributes := Table Attribute

namespace Attribute

/-- How many integers can be stored: as many as 64 bits tell apart. -/
def range : Nat := 18446744073709551616

/-- A number as it is stored: the signed reading of its low 64 bits. -/
def ofNat (value : Nat) : Attribute := .int (Int.bmod value range)

theorem ofNat_of_lt {value : Nat} (small : 2 * value < range) : ofNat value = .int value := by
  unfold range at small
  simp only [ofNat, range, int.injEq]
  rw [Int.bmod_eq_of_le] <;> omega

/-- A number in the upper half of the range is stored as a negative integer. -/
theorem ofNat_of_le {value : Nat} (large : range ≤ 2 * value) (inRange : value < range) :
    ofNat value = .int (value - range) := by
  unfold range at large inRange
  simp only [ofNat, range, int.injEq]
  rw [Int.bmod_def, Int.emod_eq_of_lt (by omega) (by omega)]
  split <;> omega

end Attribute
end Multiport
