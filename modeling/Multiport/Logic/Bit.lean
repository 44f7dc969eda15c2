namespace Multiport

/-- The state of a single wire. -/
inductive Bit where
  | zero
  | one
  | x
  | z
deriving DecidableEq, Repr, Inhabited

namespace Bit

/-- The known bit that stands for a truth value. -/
def ofBool : Bool → Bit
  | true => one
  | false => zero

/-- A bit is known when it is `0` or `1`. -/
def isKnown : Bit → Bool
  | zero | one => true
  | x | z => false

/-- Conjunction: `0` decides, two `1` bits give `1`, and all else is unknown. -/
def and : Bit → Bit → Bit
  | zero, _ => zero
  | _, zero => zero
  | one, one => one
  | _, _ => x

/-- What is certain when the bit is one of two: their common known value. -/
def merge (left right : Bit) : Bit :=
  if left = right ∧ left.isKnown = true then left else x

/-- The number a bit stands for, counting an unknown bit as `0`. -/
def toNat : Bit → Nat
  | one => 1
  | zero | x | z => 0

def toChar : Bit → Char
  | zero => '0'
  | one => '1'
  | x => 'x'
  | z => 'z'

@[simp] theorem isKnown_ofBool (b : Bool) : (ofBool b).isKnown = true := by
  cases b <;> rfl

@[simp] theorem toNat_ofBool (b : Bool) : (ofBool b).toNat = b.toNat := by
  cases b <;> rfl

theorem and_comm (left right : Bit) : left.and right = right.and left := by
  cases left <;> cases right <;> rfl

theorem and_eq_one_iff {left right : Bit} :
    left.and right = one ↔ left = one ∧ right = one := by
  cases left <;> cases right <;> decide

theorem and_eq_zero_iff {left right : Bit} :
    left.and right = zero ↔ left = zero ∨ right = zero := by
  cases left <;> cases right <;> decide

/-- Two candidates settle a bit only by agreeing on a known value. -/
theorem merge_eq_iff_of_isKnown {left right bit : Bit} (known : bit.isKnown = true) :
    left.merge right = bit ↔ left = bit ∧ right = bit := by
  cases left <;> cases right <;> cases bit <;> simp_all [merge, isKnown]

end Bit
end Multiport
