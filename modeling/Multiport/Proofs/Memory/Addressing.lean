import Mathlib.Order.Bounds.Basic
import Multiport.Memory.Descriptor
import Multiport.Proofs.Logic.Number
import Multiport.Proofs.Simulation.Evaluates

/-! Widths of addresses. The width that a memory gives its addresses is the least that numbers all
its words, so that every word is addressed by the digits of its number at that width, up to the
greatest depth that is a word. -/
namespace Multiport.Memory

open Bits (wordSize)

theorem ceilLog2_le_iff {value digits : Nat} : ceilLog2 value ≤ digits ↔ value ≤ 2 ^ digits := by
  unfold ceilLog2
  split
  · rename_i small
    have reached : value ≤ 2 ^ digits := small.trans Nat.one_le_two_pow
    simp [reached]
  · rename_i large
    rw [Nat.succ_le_iff, Nat.log2_lt (by omega)]
    omega

/-- For a word it is the number of digits left when the leading zeros are taken away. -/
theorem ceilLog2_eq_sub_clz {value : Nat} (positive : 1 ≤ value) (word : value < 2 ^ wordSize) :
    ceilLog2 value = wordSize - (BitVec.ofNat wordSize (value - 1)).clz.toNat := by
  have same : (BitVec.ofNat wordSize (value - 1)).toNat = value - 1 := by
    rw [BitVec.toNat_ofNat, Nat.mod_eq_of_lt (by omega)]
  generalize BitVec.ofNat wordSize (value - 1) = last at same ⊢
  apply Nat.le_antisymm
  · have below := BitVec.toNat_lt_two_pow_sub_clz (x := last)
    rw [same] at below
    exact ceilLog2_le_iff.mpr (by omega)
  · by_cases zero : last = 0
    · have leading : last.clz.toNat = wordSize := by rw [zero]; decide
      omega
    · have above := BitVec.two_pow_sub_clz_le_toNat_of_ne_zero (by decide) zero
      rw [same] at above
      by_contra shorter
      have reached : value ≤ 2 ^ (wordSize - 1 - last.clz.toNat) :=
        ceilLog2_le_iff.mp (by omega)
      omega

/-- The widths that address all words are those from the width of the addresses on. -/
theorem addressWidth_le_iff {depth width : Nat} :
    addressWidth depth ≤ width ↔ 1 ≤ width ∧ depth ≤ 2 ^ width := by
  rw [addressWidth, Nat.max_le, ceilLog2_le_iff, and_comm]

/-- The width of the addresses is the least that numbers every word, and at least one. -/
theorem addressWidth_isLeast (depth : Nat) :
    IsLeast {width | 1 ≤ width ∧ depth ≤ 2 ^ width} (addressWidth depth) :=
  ⟨addressWidth_le_iff.mp le_rfl, fun _ reaches => addressWidth_le_iff.mpr reaches⟩

/-- The digits of an address at that width are those of no other number. -/
theorem toWord?_ofNat_addressWidth {depth address : Nat} (word : depth < 2 ^ wordSize)
    (inside : address < depth) :
    (Bits.ofNat (addressWidth depth) address).toWord? = some address := by
  have reached : depth ≤ 2 ^ addressWidth depth := (addressWidth_isLeast depth).1.2
  rw [Bits.toWord?_ofNat _ (inside.trans word), Nat.mod_eq_of_lt (inside.trans_le reached)]

theorem Descriptor.width_of_address {descriptor : Descriptor} {kind : PortKind} {index : Nat}
    {input : PortInput} (member : input ∈ kind.inputs) (role : input.role = .address) :
    .input (addressWidth descriptor.depth) (kind.portName index ++ "_" ++ input.name) ∈
      descriptor.portInputs kind index :=
  List.mem_map.mpr ⟨input, member, by rw [role]; rfl⟩

/-- An input driven with a number holds its digits and is read back so. -/
theorem getWord_of_set {sim : Simulator} {name : String} {held : Bits} {value word : Nat}
    (found : sim.inputs.get? name = some held)
    (readBack : (Bits.ofNat held.width value).toWord? = some word) :
    ∃ next, sim.set name value = .ok next ∧ next.getWord name = .ok (some word) := by
  have input : sim.inputs.contains name = true := by simp [Table.contains, found]
  let next : Simulator :=
    { sim with inputs := sim.inputs.adjust name fun held => .ofNat held.width value }
  have driven : next.held? name = some (.ofNat held.width value) := by
    simp [next, Simulator.held?, Table.get?_adjust, found]
  refine ⟨next, by simp [Simulator.set, Simulator.setInput, input, next], ?_⟩
  simp only [Simulator.getWord, (Simulator.Evaluates.held driven).get (by decide), ok_bind,
    pure_eq_ok, readBack]

/-- The rounded logarithm of a word, found by its leading zeros, is the least exponent whose power
reaches the word, and the width of the addresses is the least positive one whose power reaches the
depth. So a word is addressed by the digits of its number at the width of an address port, in an
array and at an input in any state. -/
theorem addresses_reach_every_word :
    (∀ value, 1 ≤ value → value < 2 ^ wordSize →
      ceilLog2 value = wordSize - (BitVec.ofNat wordSize (value - 1)).clz.toNat ∧
      IsLeast {digits | value ≤ 2 ^ digits} (ceilLog2 value)) ∧
    (∀ depth, IsLeast {width | 1 ≤ width ∧ depth ≤ 2 ^ width} (addressWidth depth)) ∧
    ∀ (descriptor : Descriptor) (address : Nat), descriptor.depth < 2 ^ wordSize →
      address < descriptor.depth →
      (∀ kind : PortKind, ∀ input ∈ kind.inputs, input.role = .address → ∀ index,
        .input (addressWidth descriptor.depth) (kind.portName index ++ "_" ++ input.name) ∈
          descriptor.portInputs kind index) ∧
      (Bits.ofNat (addressWidth descriptor.depth) address).toWord? = some address ∧
      (∀ array : WordArray, array.depth = descriptor.depth → array.words[address]? =
        some (array.read (.ofNat (addressWidth descriptor.depth) address))) ∧
      ∀ (sim : Simulator) (name : String) (held : Bits), sim.inputs.get? name = some held →
        held.width = addressWidth descriptor.depth →
        ∃ next, sim.set name address = .ok next ∧ next.getWord name = .ok (some address) := by
  refine ⟨fun value positive word => ⟨ceilLog2_eq_sub_clz positive word, ceilLog2_le_iff.mp le_rfl,
    fun _ reaches => ceilLog2_le_iff.mpr reaches⟩, addressWidth_isLeast,
    fun descriptor address word inside => ?_⟩
  have readBack := toWord?_ofNat_addressWidth word inside
  refine ⟨fun kind input member role index => Descriptor.width_of_address member role, readBack,
    fun array same => ?_, fun sim name held found wide => ?_⟩
  · have within : address < array.words.size := by rw [← same] at inside; exact inside
    simp [WordArray.read, readBack, within]
  · exact getWord_of_set found (wide ▸ readBack)

/-- The greatest memory that a word numbers, and those about a power of two. -/
theorem addresses_reach_every_word_greatest :
    (1 ≤ 5 ∧ 5 < 2 ^ wordSize ∧ IsLeast {digits | 5 ≤ 2 ^ digits} (ceilLog2 5)) ∧
    (2 ^ 64 - 1 < 2 ^ wordSize ∧
      (Bits.ofNat (addressWidth (2 ^ 64 - 1)) (2 ^ 64 - 2)).toWord? = some (2 ^ 64 - 2)) ∧
    (Bits.ofNat (addressWidth 8) 7).toWord? = some 7 ∧
    (Bits.ofNat (addressWidth 9) 8).toWord? = some 8 ∧
    ∃ next, (Simulator.empty.addPort (.input 3 "A")).set "A" 4 = .ok next ∧
      next.getWord "A" = .ok (some 4) := by
  obtain ⟨logarithms, -, addressed⟩ := addresses_reach_every_word
  have greatest : 2 ^ 64 - 1 < 2 ^ wordSize := by decide
  refine ⟨⟨by decide, by decide, (logarithms 5 (by decide) (by decide)).2⟩, ⟨greatest,
    (addressed (.ofSize 1 (2 ^ 64 - 1)) (2 ^ 64 - 2) greatest (by decide)).2.1⟩,
    (addressed (.ofSize 1 8) 7 (by decide) (by decide)).2.1,
    (addressed (.ofSize 1 9) 8 (by decide) (by decide)).2.1, ?_⟩
  exact (addressed (.ofSize 1 5) 4 (by decide) (by decide)).2.2.2 _ "A" (.x 3) (by decide)
    (by decide)

end Multiport.Memory
