import Mathlib.Combinatorics.Colex
import Multiport.Logic.Bits

/-! Vectors as numbers. A vector denotes the sum of the powers of two at its `1` bits, whatever its
width; what the operations on vectors do is arithmetic on these numbers. Only the conversion to and
from a word knows about the word size. -/
namespace Multiport.Bits

theorem ext_getElem? {left right : Bits}
    (same : ∀ index : Nat, left.toList[index]? = right.toList[index]?) : left = right :=
  congrArg ofList (List.ext_getElem? same)

theorem getElem?_resize (bits : Bits) (width index : Nat) :
    (bits.resize width).toList[index]? =
      if index < width then some (bits.toList.getD index .zero) else none := by
  rw [resize, List.getElem?_append, List.length_take, List.getElem?_replicate,
    List.getElem?_take, List.getD_eq_getElem?_getD, Bits.width]
  by_cases inside : index < width
  · by_cases given : index < bits.toList.length
    · have start : index < min width bits.toList.length := by omega
      simp [inside, given, start]
    · have beyond : ¬ index < min width bits.toList.length := by omega
      have padded : index - min width bits.toList.length < width - bits.toList.length := by omega
      simp [given, inside, beyond, padded]
  · have past : ¬ index - min width bits.toList.length < width - bits.toList.length := by omega
    simp [inside, past]

def ones (bits : Bits) : Finset Nat :=
  (Finset.range bits.width).filter fun index => bits.toList[index]? = some .one

def number (bits : Bits) : Nat := ∑ index ∈ bits.ones, 2 ^ index

theorem mem_ones {bits : Bits} {index : Nat} :
    index ∈ bits.ones ↔ bits.toList[index]? = some .one := by
  simp only [ones, Finset.mem_filter, Finset.mem_range, and_iff_right_iff_imp]
  exact fun one => (List.getElem?_eq_some_iff.mp one).1

theorem testBit_toNat (bits : Bits) (index : Nat) :
    bits.toNat.testBit index = decide (bits.toList[index]? = some .one) := by
  obtain ⟨list⟩ := bits
  induction list generalizing index with
  | nil => simp [toNat]
  | cons bit rest ih =>
    have step : toNat ⟨bit :: rest⟩ = bit.toNat + 2 * toNat ⟨rest⟩ := rfl
    cases index with
    | zero => cases bit <;> simp [step, Bit.toNat, Nat.testBit_zero, Nat.add_mod]
    | succ index =>
      have half : (bit.toNat + 2 * toNat ⟨rest⟩) / 2 = toNat ⟨rest⟩ := by
        cases bit <;> simp only [Bit.toNat] <;> omega
      rw [step, Nat.testBit_succ, half, ih]
      rfl

theorem number_eq_toNat (bits : Bits) : bits.number = bits.toNat := by
  have digits : bits.ones = bits.toNat.bitIndices.toFinset := by
    ext index
    rw [mem_ones, List.mem_toFinset, Nat.mem_bitIndices, testBit_toNat, decide_eq_true_iff]
  rw [number, digits, Finset.sum_toFinset_bitIndices_two_pow]

theorem getElem?_ofNat (width value index : Nat) :
    (ofNat width value).toList[index]? =
      if index < width then some (Bit.ofBool (value.testBit index)) else none := by
  rw [ofNat, List.getElem?_map]
  by_cases inside : index < width <;> simp [inside]

theorem toNat_ofNat (width value : Nat) : (ofNat width value).toNat = value % 2 ^ width := by
  apply Nat.eq_of_testBit_eq
  intro index
  rw [testBit_toNat, Nat.testBit_mod_two_pow, getElem?_ofNat]
  by_cases inside : index < width
  · cases digit : value.testBit index <;> simp [inside, Bit.ofBool]
  · simp [inside]

theorem ofNat_toNat {bits : Bits} (known : bits.isKnown = true) :
    ofNat bits.width bits.toNat = bits := by
  refine ext_getElem? fun index => ?_
  rw [getElem?_ofNat, testBit_toNat]
  by_cases inside : index < bits.width
  · have bit : bits.toList[index].isKnown = true :=
      List.all_eq_true.mp known _ (List.getElem_mem inside)
    rw [if_pos inside, List.getElem?_eq_getElem inside]
    cases digit : bits.toList[index] <;> simp_all [Bit.ofBool, Bit.isKnown]
  · rw [if_neg inside, List.getElem?_eq_none (Nat.not_lt.mp inside)]

theorem toNat_lt (bits : Bits) : bits.toNat < 2 ^ bits.width := by
  apply Nat.lt_pow_two_of_testBit
  intro index beyond
  rw [testBit_toNat, List.getElem?_eq_none beyond]
  rfl

theorem toNat_resize (bits : Bits) (width : Nat) :
    (bits.resize width).toNat = bits.toNat % 2 ^ width := by
  apply Nat.eq_of_testBit_eq
  intro index
  rw [testBit_toNat, Nat.testBit_mod_two_pow, testBit_toNat, getElem?_resize,
    List.getD_eq_getElem?_getD]
  by_cases inside : index < width
  · cases bits.toList[index]? <;> simp [inside]
  · simp [inside]

theorem isKnown_resize {bits : Bits} (known : bits.isKnown = true) (width : Nat) :
    (bits.resize width).isKnown = true := by
  simp only [isKnown, List.all_eq_true] at known ⊢
  intro bit member
  rcases List.mem_append.mp member with kept | padded
  · exact known bit (List.mem_of_mem_take kept)
  · rw [List.eq_of_mem_replicate padded]
    rfl

theorem eq_iff_toNat_eq {left right : Bits} (leftKnown : left.isKnown = true)
    (rightKnown : right.isKnown = true) (same : left.width = right.width) :
    left = right ↔ left.toNat = right.toNat := by
  refine ⟨congrArg toNat, fun numbers => ?_⟩
  rw [← ofNat_toNat leftKnown, ← ofNat_toNat rightKnown, same, numbers]

theorem eqArith_of_isKnown {left right : Bits} (leftKnown : left.isKnown = true)
    (rightKnown : right.isKnown = true) :
    left.eqArith right = ⟨[if left.toNat = right.toNat then .one else .zero]⟩ := by
  let width := max left.width right.width
  have whole : ∀ bits : Bits, bits.width ≤ width → (bits.resize width).toNat = bits.toNat :=
    fun bits bound => by
      rw [toNat_resize,
        Nat.mod_eq_of_lt (bits.toNat_lt.trans_le (Nat.pow_le_pow_right (by decide) bound))]
  have compared : left.resize width = right.resize width ↔ left.toNat = right.toNat := by
    rw [eq_iff_toNat_eq (isKnown_resize leftKnown width) (isKnown_resize rightKnown width)
      (by simp), whole left (Nat.le_max_left _ _), whole right (Nat.le_max_right _ _)]
  have decided : left.eqArith right =
      ⟨[Bit.ofBool (left.resize width == right.resize width)]⟩ := by
    simp only [eqArith, leftKnown, rightKnown, Bool.and_self, ↓reduceIte, width]
  rw [decided]
  by_cases same : left.toNat = right.toNat
  · rw [compared.mpr same, beq_self_eq_true, if_pos same]
    rfl
  · rw [beq_eq_false_iff_ne.mpr (mt compared.mp same), if_neg same]
    rfl

/-- A known vector is a word exactly if all its `1` bits are within the word size. -/
theorem toWord?_eq_some_iff {bits : Bits} {word : Nat} :
    bits.toWord? = some word ↔
      bits.isKnown = true ∧ (∀ index ∈ bits.ones, index < wordSize) ∧ word = bits.number := by
  have within : bits.isKnown = true →
      ((bits.toList.drop wordSize).all (· == .zero) = true ↔
        ∀ index ∈ bits.ones, index < wordSize) := by
    intro known
    simp only [List.all_eq_true, beq_iff_eq]
    constructor
    · intro zeros index one
      by_contra beyond
      have dropped : (bits.toList.drop wordSize)[index - wordSize]? = some .one := by
        rw [List.getElem?_drop, Nat.add_sub_cancel' (Nat.not_lt.mp beyond)]
        exact mem_ones.mp one
      cases zeros .one (List.mem_of_getElem? dropped)
    · intro inside bit member
      obtain ⟨place, found⟩ := List.mem_iff_getElem?.mp member
      rw [List.getElem?_drop] at found
      have certain := List.all_eq_true.mp known bit (List.mem_of_getElem? found)
      cases bit with
      | zero => rfl
      | one => exact absurd (inside _ (mem_ones.mpr found)) (by omega)
      | x | z => cases certain
  unfold toWord?
  by_cases known : bits.isKnown = true
  · by_cases inside : (bits.toList.drop wordSize).all (· == .zero) = true
    · have ones := (within known).mp inside
      simp only [known, inside, Bool.and_self, ↓reduceIte, Option.some.injEq, true_and,
        number_eq_toNat]
      exact ⟨fun same => ⟨ones, same.symm⟩, fun holds => holds.2.symm⟩
    · simp only [known, inside, Bool.true_and, ↓reduceIte, true_and, reduceCtorEq,
        Bool.false_eq_true, false_iff]
      exact fun holds => inside ((within known).mpr holds.1)
  · simp [known]

/-- No `1` bit is beyond the word size exactly if the number is less than the first that is no
word. -/
theorem number_lt_iff {bits : Bits} :
    bits.number < 2 ^ wordSize ↔ ∀ index ∈ bits.ones, index < wordSize := by
  rw [number_eq_toNat]
  constructor
  · intro small index one
    by_contra beyond
    have zero := Nat.testBit_lt_two_pow
      (small.trans_le (Nat.pow_le_pow_right (by decide) (Nat.not_lt.mp beyond)))
    rw [testBit_toNat, decide_eq_false_iff_not] at zero
    exact zero (mem_ones.mp one)
  · intro inside
    apply Nat.lt_pow_two_of_testBit
    intro index beyond
    rw [testBit_toNat, decide_eq_false_iff_not]
    exact fun one => absurd (inside index (mem_ones.mpr one)) (Nat.not_lt.mpr beyond)

theorem toWord?_eq_ite (bits : Bits) :
    bits.toWord? =
      if bits.isKnown = true ∧ bits.number < 2 ^ wordSize then some bits.number else none := by
  ext word
  rw [toWord?_eq_some_iff, ← number_lt_iff, ← and_assoc]
  split
  · rename_i holds
    simp [holds, eq_comm]
  · rename_i fails
    simp [fails]

/-- A number that fits the word size is read back as its remainder, at every width. -/
theorem toWord?_ofNat (width : Nat) {value : Nat} (fits : value < 2 ^ wordSize) :
    (ofNat width value).toWord? = some (value % 2 ^ width) := by
  have small : value % 2 ^ width < 2 ^ wordSize := (Nat.mod_le _ _).trans_lt fits
  rw [toWord?_eq_ite, number_eq_toNat, toNat_ofNat, if_pos ⟨isKnown_ofNat width value, small⟩]

theorem isKnown_iff {bits : Bits} :
    bits.isKnown = true ↔ ∀ bit ∈ bits.toList, bit = .zero ∨ bit = .one := by
  rw [isKnown, List.all_eq_true]
  refine forall₂_congr fun bit _ => ?_
  cases bit <;> simp [Bit.isKnown]

/-- Vectors of every width, below, at and beyond the word size, are numbers: a word is read back as
its remainder, a vector is read as a word exactly if all its bits are known and none of its `1` bits
is beyond the word size, resizing takes a remainder, and comparing compares the numbers, whatever
the widths are. -/
theorem vectors_are_numbers :
    (∀ width value, value < 2 ^ wordSize →
      (ofNat width value).toWord? = some (value % 2 ^ width)) ∧
    (∀ (bits : Bits) (word : Nat), bits.toWord? = some word ↔
      (∀ bit ∈ bits.toList, bit = .zero ∨ bit = .one) ∧
      (∀ index, wordSize ≤ index → bits.toList[index]? ≠ some .one) ∧ word = bits.number) ∧
    (∀ (bits : Bits) (word : Nat), bits.toWord? = some word → ofNat bits.width word = bits) ∧
    (∀ (bits : Bits) (width : Nat), bits.isKnown = true →
      (bits.resize width).isKnown = true ∧ (bits.resize width).width = width ∧
      (bits.resize width).number = bits.number % 2 ^ width ∧
      (bits.width ≤ width → (bits.resize width).number = bits.number)) ∧
    ∀ left right : Bits, left.isKnown = true → right.isKnown = true →
      left.eqArith right = if left.number = right.number then ofNat 1 1 else ofNat 1 0 := by
  refine ⟨fun width value => toWord?_ofNat width, fun bits word => ?_, fun bits word read => ?_,
    fun bits width known => ⟨isKnown_resize known width, width_resize bits width, ?_, ?_⟩,
    fun left right leftKnown rightKnown => ?_⟩
  · have within : (∀ index ∈ bits.ones, index < wordSize) ↔
        ∀ index, wordSize ≤ index → bits.toList[index]? ≠ some .one := by
      refine forall_congr' fun index => ?_
      rw [mem_ones, ← not_imp_not, not_lt]
    rw [toWord?_eq_some_iff, isKnown_iff, within]
  · obtain ⟨known, -, rfl⟩ := toWord?_eq_some_iff.mp read
    rw [number_eq_toNat, ofNat_toNat known]
  · rw [number_eq_toNat, number_eq_toNat, toNat_resize]
  · intro wider
    rw [number_eq_toNat, number_eq_toNat, toNat_resize,
      Nat.mod_eq_of_lt (bits.toNat_lt.trans_le (Nat.pow_le_pow_right (by decide) wider))]
  · rw [eqArith_of_isKnown leftKnown rightKnown, number_eq_toNat, number_eq_toNat]
    split <;> rfl

/-- A vector whose only `1` bit is beyond the word size. -/
def beyondWord : Bits := ⟨List.replicate 66 .zero ++ [.one, .zero]⟩

/-- The greatest word in narrow and wide vectors, and a vector that is no word. -/
theorem vectors_are_numbers_beyond_word :
    (2 ^ 64 - 1 < 2 ^ wordSize ∧ (ofNat 5 (2 ^ 64 - 1)).toWord? = some 31 ∧
      (ofNat 70 (2 ^ 64 - 1)).toWord? = some (2 ^ 64 - 1) ∧ (ofNat 0 7).toWord? = some 0) ∧
    ((⟨[.one, .zero, .one]⟩ : Bits).toWord? = some 5 ∧
      ofNat 3 5 = ⟨[.one, .zero, .one]⟩) ∧
    (beyondWord.isKnown = true ∧ beyondWord.toWord? = none ∧
      (beyondWord.resize 66).number = beyondWord.number % 2 ^ 66 ∧
      (beyondWord.resize 80).number = beyondWord.number ∧
      beyondWord.eqArith (ofNat 90 (2 ^ 66)) =
        if beyondWord.number = (ofNat 90 (2 ^ 66)).number then ofNat 1 1 else ofNat 1 0) := by
  obtain ⟨readBack, reads, written, resized, compared⟩ := vectors_are_numbers
  have fits : 2 ^ 64 - 1 < 2 ^ wordSize := by decide
  have five : (⟨[.one, .zero, .one]⟩ : Bits).toWord? = some 5 := by decide
  have known : beyondWord.isKnown = true := by decide
  refine ⟨⟨fits, readBack 5 _ fits, readBack 70 _ fits, readBack 0 7 (by decide)⟩,
    ⟨five, written _ 5 five⟩, known, ?_, (resized _ 66 known).2.2.1,
    (resized _ 80 known).2.2.2 (by decide), compared _ _ known (isKnown_ofNat _ _)⟩
  rw [Option.eq_none_iff_forall_ne_some]
  intro word read
  exact ((reads _ word).mp read).2.1 66 (by decide) (by decide)

end Multiport.Bits
