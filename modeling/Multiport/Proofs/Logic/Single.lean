import Multiport.Logic.Bits

namespace Multiport.Bits

theorem resize_of_width_eq {bits : Bits} {width : Nat} (same : bits.width = width) :
    bits.resize width = bits := by
  subst same
  exact bits.resize_width

theorem exists_of_width_eq_one {bits : Bits} (single : bits.width = 1) :
    ∃ bit : Bit, bits = ⟨[bit]⟩ := by
  obtain ⟨list⟩ := bits
  obtain ⟨bit, rfl⟩ := List.length_eq_one_iff.mp single
  exact ⟨bit, rfl⟩

theorem isTrue_iff_of_width_eq_one {bits : Bits} (single : bits.width = 1) :
    bits.isTrue = true ↔ bits = .ofNat 1 1 := by
  obtain ⟨bit, rfl⟩ := exists_of_width_eq_one single
  cases bit <;> decide

theorem eqArith_zero_iff {bits : Bits} (single : bits.width = 1) :
    bits.eqArith (.ofNat 1 0) = .ofNat 1 1 ↔ bits = .ofNat 1 0 := by
  obtain ⟨bit, rfl⟩ := exists_of_width_eq_one single
  cases bit <;> decide

theorem and?_of_width_eq_one {left right : Bits} (leftSingle : left.width = 1)
    (rightSingle : right.width = 1) :
    ∃ bits, left.and? right = some bits ∧ bits.width = 1 ∧
      (bits = .ofNat 1 1 ↔ left = .ofNat 1 1 ∧ right = .ofNat 1 1) := by
  obtain ⟨first, rfl⟩ := exists_of_width_eq_one leftSingle
  obtain ⟨second, rfl⟩ := exists_of_width_eq_one rightSingle
  refine ⟨⟨[first.and second]⟩, rfl, rfl, ?_⟩
  cases first <;> cases second <;> decide

theorem ofNat_one_ne_zero : Bits.ofNat 1 1 ≠ Bits.ofNat 1 0 := by decide

theorem x_one_ne_ofNat (value : Nat) : Bits.x 1 ≠ Bits.ofNat 1 value := by
  intro same
  have known := isKnown_ofNat 1 value
  rw [← same] at known
  exact absurd known (by decide)

theorem merge?_x {bits : Bits} {width : Nat} (same : bits.width = width) :
    bits.merge? (.x width) = some (.x width) := by
  subst same
  obtain ⟨list⟩ := bits
  have settled : ∀ bit : Bit, bit.merge .x = .x := by
    intro bit
    cases bit <;> rfl
  have zipped : List.zipWith Bit.merge list (List.replicate list.length .x) =
      List.replicate list.length .x := by
    induction list with
    | nil => rfl
    | cons first rest ih => simpa [List.replicate_succ, settled] using ih
  simp only [merge?, width_x, ↓reduceIte]
  exact congrArg (fun bits => some (Bits.ofList bits)) zipped

end Multiport.Bits
