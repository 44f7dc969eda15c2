import Multiport.Logic.Bit

/-! Bit vectors of any width, least significant bit first. Conversions to and from numbers, the
operators of the netlist language, and the operations that need equal widths, which answer `none`
when the widths differ. Each operation has a lemma saying what it does to the width. -/
namespace Multiport

/-- A vector of bits; position `i` weighs `2 ^ i`. -/
structure Bits where
  ofList ::
  toList : List Bit
deriving DecidableEq, Repr, Inhabited

namespace Bits

/-- The widest number that a vector is read as, in bits. -/
def wordSize : Nat := 64

def width (bits : Bits) : Nat := bits.toList.length

/-- A vector about which nothing is known. -/
def x (width : Nat) : Bits := ⟨List.replicate width .x⟩

/-- The low `width` binary digits of a number. -/
def ofNat (width value : Nat) : Bits :=
  ⟨(List.range width).map fun i => Bit.ofBool (value.testBit i)⟩

/-- Every bit is `0` or `1`. -/
def isKnown (bits : Bits) : Bool := bits.toList.all Bit.isKnown

/-- Every bit is unknown, as in an empty vector. -/
def isX (bits : Bits) : Bool := bits.toList.all (· == .x)

/-- The number whose binary digits are the bits. -/
def toNat (bits : Bits) : Nat := bits.toList.foldr (fun bit rest => bit.toNat + 2 * rest) 0

/-- The number a known vector denotes, unless a `1` stands beyond the word size. -/
def toWord? (bits : Bits) : Option Nat :=
  if bits.isKnown && (bits.toList.drop wordSize).all (· == .zero) then some bits.toNat else none

/-- Truth of a condition: fully known and not zero. -/
def isTrue (bits : Bits) : Bool := bits.isKnown && bits.toList.any (· == .one)

/-- Cuts at `width`, or extends with zeros up to it. -/
def resize (bits : Bits) (width : Nat) : Bits :=
  ⟨bits.toList.take width ++ List.replicate (width - bits.width) .zero⟩

/-- Equality of the numbers denoted, as one bit; unknown as soon as any bit is. -/
def eqArith (left right : Bits) : Bits :=
  if left.isKnown && right.isKnown then
    let width := max left.width right.width
    ⟨[Bit.ofBool (left.resize width == right.resize width)]⟩
  else
    x 1

/-- Bitwise conjunction of vectors of one width. -/
def and? (left right : Bits) : Option Bits :=
  if left.width = right.width then some ⟨List.zipWith Bit.and left.toList right.toList⟩ else none

/-- What two candidates of one width agree on. -/
def merge? (left right : Bits) : Option Bits :=
  if left.width = right.width then some ⟨List.zipWith Bit.merge left.toList right.toList⟩ else none

/-- Digits from the most significant bit down. -/
def render (bits : Bits) : String := String.ofList (bits.toList.reverse.map Bit.toChar)

@[simp] theorem width_x (width : Nat) : (x width).width = width := by
  simp [x, Bits.width]

@[simp] theorem width_ofNat (width value : Nat) : (ofNat width value).width = width := by
  simp [ofNat, Bits.width]

@[simp] theorem width_resize (bits : Bits) (width : Nat) : (bits.resize width).width = width := by
  simp only [resize, Bits.width, List.length_append, List.length_take, List.length_replicate]
  omega

@[simp] theorem width_eqArith (left right : Bits) : (left.eqArith right).width = 1 := by
  unfold eqArith
  split
  · rfl
  · exact width_x 1

@[simp] theorem isKnown_ofNat (width value : Nat) : (ofNat width value).isKnown = true := by
  simp [ofNat, isKnown]

@[simp] theorem isX_x (width : Nat) : (x width).isX = true := by
  simp [x, isX]

theorem resize_width (bits : Bits) : bits.resize bits.width = bits := by
  simp [resize, Bits.width]

theorem and?_eq_none_iff {left right : Bits} :
    left.and? right = none ↔ left.width ≠ right.width := by
  simp [and?]

theorem merge?_eq_none_iff {left right : Bits} :
    left.merge? right = none ↔ left.width ≠ right.width := by
  simp [merge?]

theorem width_of_and?_eq_some {left right bits : Bits} (found : left.and? right = some bits) :
    bits.width = left.width := by
  unfold and? at found
  split at found
  · rename_i same
    cases found
    simp only [Bits.width] at same ⊢
    simp [List.length_zipWith, same]
  · cases found

theorem width_of_merge?_eq_some {left right bits : Bits} (found : left.merge? right = some bits) :
    bits.width = left.width := by
  unfold merge? at found
  split at found
  · rename_i same
    cases found
    simp only [Bits.width] at same ⊢
    simp [List.length_zipWith, same]
  · cases found

theorem isKnown_of_isTrue {bits : Bits} (holds : bits.isTrue = true) : bits.isKnown = true := by
  simp only [isTrue, Bool.and_eq_true] at holds
  exact holds.1

end Bits
end Multiport
