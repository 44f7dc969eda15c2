import Multiport.Logic.Bits

namespace Multiport

/-- An array of words. -/
structure WordArray where
  width : Nat
  words : Array Bits
deriving DecidableEq

namespace WordArray

def x (width depth : Nat) : WordArray := ⟨width, Array.replicate depth (.x width)⟩

def depth (array : WordArray) : Nat := array.words.size

/-- The word at an address that may be unknown. -/
def read (array : WordArray) (address : Bits) : Bits :=
  ((address.toWord?).bind fun address => array.words[address]?).getD (.x array.width)

/-- The array with one word replaced, at the width of the array. -/
def write (array : WordArray) (address : Nat) (value : Bits) : WordArray :=
  { array with words := array.words.setIfInBounds address (value.resize array.width) }

@[simp] theorem depth_x (width depth : Nat) : (x width depth).depth = depth := by
  simp [x, WordArray.depth]

@[simp] theorem depth_write (array : WordArray) (address : Nat) (value : Bits) :
    (array.write address value).depth = array.depth := by
  simp [write, depth]

@[simp] theorem width_write (array : WordArray) (address : Nat) (value : Bits) :
    (array.write address value).width = array.width := rfl

theorem read_of_toWord?_eq_none {array : WordArray} {address : Bits}
    (unknown : address.toWord? = none) : array.read address = .x array.width := by
  simp [read, unknown]

theorem read_of_depth_le {array : WordArray} {address : Bits} {index : Nat}
    (known : address.toWord? = some index) (beyond : array.depth ≤ index) :
    array.read address = .x array.width := by
  unfold depth at beyond
  simp [read, known, beyond]

theorem write_of_depth_le {array : WordArray} {address : Nat} (value : Bits)
    (beyond : array.depth ≤ address) : array.write address value = array := by
  unfold depth at beyond
  simp [write, Array.setIfInBounds, Nat.not_lt.mpr beyond]

end WordArray
end Multiport
