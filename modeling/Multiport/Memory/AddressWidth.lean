namespace Multiport.Memory

/-- The logarithm to base two, rounded up: the number of binary digits of `value - 1`. -/
def ceilLog2 (value : Nat) : Nat :=
  if value ≤ 1 then 0 else (value - 1).log2 + 1

/-- Bits of an address into `depth` words; a memory of one word still has one address bit. -/
def addressWidth (depth : Nat) : Nat := max (ceilLog2 depth) 1

theorem ceilLog2_of_le_one {value : Nat} (small : value ≤ 1) : ceilLog2 value = 0 := by
  simp [ceilLog2, small]

theorem addressWidth_pos (depth : Nat) : 0 < addressWidth depth := by
  unfold addressWidth
  omega

end Multiport.Memory
