import Mathlib.Data.List.Forall2
import Multiport.Logic.Bits

namespace Multiport

namespace Bit

/-- The second bit is what the first may turn out to be: an unknown bit may be any, every other bit
is itself. -/
def ResolvesTo (first second : Bit) : Prop := first = .x ∨ first = second

instance (first second : Bit) : Decidable (first.ResolvesTo second) :=
  inferInstanceAs (Decidable (_ ∨ _))

theorem resolvesTo_iff {first second : Bit} :
    first.ResolvesTo second ↔ (first ≠ .x → second = first) := by
  rw [ResolvesTo, or_iff_not_imp_left, eq_comm (a := first) (b := second)]

variable {first second left right : Bit}

theorem ResolvesTo.eq_of_isKnown (resolves : first.ResolvesTo second)
    (known : first.isKnown = true) : first = second := by
  rcases resolves with rfl | same
  · cases known
  · exact same

theorem ResolvesTo.and (resolvesLeft : first.ResolvesTo left)
    (resolvesRight : second.ResolvesTo right) : (first.and second).ResolvesTo (left.and right) := by
  rcases resolvesLeft with rfl | rfl
  · rcases resolvesRight with rfl | rfl
    · exact .inl rfl
    · cases second <;> cases left <;> decide
  · rcases resolvesRight with rfl | rfl
    · cases first <;> cases right <;> decide
    · exact .inr rfl

theorem ResolvesTo.merge (resolvesLeft : first.ResolvesTo left)
    (resolvesRight : second.ResolvesTo right) :
    (first.merge second).ResolvesTo (left.merge right) := by
  unfold Bit.merge
  split
  · rename_i agree
    obtain ⟨rfl, known⟩ := agree
    rw [← resolvesLeft.eq_of_isKnown known, ← resolvesRight.eq_of_isKnown known]
    simp [known, ResolvesTo]
  · exact .inl rfl

theorem merge_resolvesTo_left (first second : Bit) : (first.merge second).ResolvesTo first := by
  cases first <;> cases second <;> decide

theorem merge_resolvesTo_right (first second : Bit) : (first.merge second).ResolvesTo second := by
  cases first <;> cases second <;> decide

end Bit

namespace Bits

/-- The second vector is what the first may turn out to be. -/
structure ResolvesTo (first second : Bits) : Prop where
  width : second.width = first.width
  kept : ∀ (index : Nat) (bit : Bit), first.toList[index]? = some bit → bit ≠ .x →
    second.toList[index]? = some bit

theorem resolvesTo_iff_forall₂ {first second : Bits} :
    first.ResolvesTo second ↔ List.Forall₂ Bit.ResolvesTo first.toList second.toList := by
  rw [List.forall₂_iff_get]
  constructor
  · rintro ⟨width, kept⟩
    refine ⟨width.symm, fun index inFirst inSecond => Bit.resolvesTo_iff.mpr fun known => ?_⟩
    have found := kept index _ (List.getElem?_eq_getElem inFirst) known
    rw [List.getElem?_eq_getElem inSecond] at found
    exact Option.some.inj found
  · rintro ⟨width, each⟩
    refine ⟨width.symm, fun index bit found known => ?_⟩
    obtain ⟨inFirst, rfl⟩ := List.getElem?_eq_some_iff.mp found
    have inSecond : index < second.toList.length := width ▸ inFirst
    rw [List.getElem?_eq_getElem inSecond]
    exact congrArg some (Bit.resolvesTo_iff.mp (each index inFirst inSecond) known)

instance (first second : Bits) : Decidable (first.ResolvesTo second) :=
  decidable_of_iff _ resolvesTo_iff_forall₂.symm

/-- A bit that is not driven is no unknown bit: it stays. -/
example : (ofList [.x, .z]).ResolvesTo (ofList [.one, .z]) ∧
    ¬ (ofList [.x, .z]).ResolvesTo (ofList [.one, .one]) := by decide

theorem ResolvesTo.refl (bits : Bits) : bits.ResolvesTo bits := ⟨rfl, fun _ _ found _ => found⟩

theorem ResolvesTo.trans {first middle last : Bits} (earlier : first.ResolvesTo middle)
    (later : middle.ResolvesTo last) : first.ResolvesTo last :=
  ⟨later.width.trans earlier.width,
    fun index bit found known => later.kept index bit (earlier.kept index bit found known) known⟩

/-- A vector of which nothing is known may turn out to be any of its width. -/
theorem x_resolvesTo {width : Nat} {bits : Bits} (same : bits.width = width) :
    (x width).ResolvesTo bits := by
  refine ⟨same.trans (width_x width).symm, fun index bit found known => ?_⟩
  exact absurd (List.eq_of_mem_replicate (List.mem_of_getElem? found)) known

variable {first second left right : Bits}

theorem ResolvesTo.eq_of_isKnown (resolves : first.ResolvesTo second)
    (known : first.isKnown = true) : second = first := by
  obtain ⟨firstBits⟩ := first
  obtain ⟨secondBits⟩ := second
  simp only [isKnown, List.all_eq_true] at known
  refine congrArg ofList (List.ext_getElem resolves.width fun index inSecond inFirst => ?_)
  have certain : firstBits[index] ≠ .x := by
    intro unknown
    have here := known _ (List.getElem_mem inFirst)
    rw [unknown] at here
    cases here
  have same := resolves.kept index _ (List.getElem?_eq_getElem inFirst) certain
  rw [List.getElem?_eq_getElem inSecond] at same
  exact Option.some.inj same

theorem isKnown_of_toWord?_eq_some {bits : Bits} {value : Nat}
    (denotes : bits.toWord? = some value) : bits.isKnown = true := by
  unfold toWord? at denotes
  split at denotes
  · rename_i word
    exact (Bool.and_eq_true_iff.mp word).1
  · cases denotes

/-- Cutting and extending respects the order, because all that is added is known. -/
theorem ResolvesTo.resize (resolves : first.ResolvesTo second) (width : Nat) :
    (first.resize width).ResolvesTo (second.resize width) := by
  rw [resolvesTo_iff_forall₂]
  simp only [Bits.resize, resolves.width]
  exact List.rel_append (List.forall₂_take width (resolvesTo_iff_forall₂.mp resolves))
    (List.forall₂_same.mpr fun _ _ => .inr rfl)

/-- Comparison respects the order: it is unknown unless all bits are known. -/
theorem ResolvesTo.eqArith (resolvesLeft : first.ResolvesTo left)
    (resolvesRight : second.ResolvesTo right) :
    (first.eqArith second).ResolvesTo (left.eqArith right) := by
  by_cases known : (first.isKnown && second.isKnown) = true
  · obtain ⟨knownFirst, knownSecond⟩ := Bool.and_eq_true_iff.mp known
    rw [resolvesLeft.eq_of_isKnown knownFirst, resolvesRight.eq_of_isKnown knownSecond]
    exact .refl _
  · have unknown : first.eqArith second = x 1 := if_neg known
    rw [unknown]
    exact x_resolvesTo (width_eqArith left right)

private theorem forall₂_zipWith {combine : Bit → Bit → Bit}
    (respects : ∀ {first second left right : Bit}, first.ResolvesTo left →
      second.ResolvesTo right → (combine first second).ResolvesTo (combine left right))
    {first second left right : List Bit} (resolvesLeft : List.Forall₂ Bit.ResolvesTo first left)
    (resolvesRight : List.Forall₂ Bit.ResolvesTo second right) :
    List.Forall₂ Bit.ResolvesTo (List.zipWith combine first second)
      (List.zipWith combine left right) := by
  induction resolvesLeft generalizing second right with
  | nil => exact .nil
  | cons here _ ih =>
    cases resolvesRight with
    | nil => exact .nil
    | cons there rest => exact .cons (respects here there) (ih rest)

private theorem ResolvesTo.zipWith {combine : Bit → Bit → Bit}
    (respects : ∀ {first second left right : Bit}, first.ResolvesTo left →
      second.ResolvesTo right → (combine first second).ResolvesTo (combine left right))
    (resolvesLeft : first.ResolvesTo left) (resolvesRight : second.ResolvesTo right) :
    (ofList (List.zipWith combine first.toList second.toList)).ResolvesTo
      (ofList (List.zipWith combine left.toList right.toList)) :=
  resolvesTo_iff_forall₂.mpr (forall₂_zipWith respects (resolvesTo_iff_forall₂.mp resolvesLeft)
    (resolvesTo_iff_forall₂.mp resolvesRight))

/-- Conjunction respects the order, and is possible for the same vectors. -/
theorem ResolvesTo.and? (resolvesLeft : first.ResolvesTo left)
    (resolvesRight : second.ResolvesTo right) {bits : Bits}
    (found : first.and? second = some bits) :
    ∃ value, left.and? right = some value ∧ bits.ResolvesTo value := by
  simp only [Bits.and?, resolvesLeft.width, resolvesRight.width] at found ⊢
  split at found
  · rename_i same
    cases found
    exact ⟨_, if_pos same, .zipWith Bit.ResolvesTo.and resolvesLeft resolvesRight⟩
  · cases found

/-- Merging respects the order, and is possible for the same vectors. -/
theorem ResolvesTo.merge? (resolvesLeft : first.ResolvesTo left)
    (resolvesRight : second.ResolvesTo right) {bits : Bits}
    (found : first.merge? second = some bits) :
    ∃ value, left.merge? right = some value ∧ bits.ResolvesTo value := by
  simp only [Bits.merge?, resolvesLeft.width, resolvesRight.width] at found ⊢
  split at found
  · rename_i same
    cases found
    exact ⟨_, if_pos same, .zipWith Bit.ResolvesTo.merge resolvesLeft resolvesRight⟩
  · cases found

private theorem forall₂_zipWith_merge {first second : List Bit}
    (same : first.length = second.length) :
    List.Forall₂ Bit.ResolvesTo (List.zipWith Bit.merge first second) first ∧
      List.Forall₂ Bit.ResolvesTo (List.zipWith Bit.merge first second) second := by
  induction first generalizing second with
  | nil =>
    obtain rfl := List.eq_nil_of_length_eq_zero same.symm
    exact ⟨.nil, .nil⟩
  | cons here rest ih =>
    cases second with
    | nil => cases same
    | cons there others =>
      obtain ⟨toFirst, toSecond⟩ := ih (Nat.succ.inj same)
      exact ⟨.cons (here.merge_resolvesTo_left there) toFirst,
        .cons (here.merge_resolvesTo_right there) toSecond⟩

/-- What two candidates agree on may turn out to be either of them. -/
theorem merge?_resolvesTo {bits : Bits} (found : first.merge? second = some bits) :
    bits.ResolvesTo first ∧ bits.ResolvesTo second := by
  simp only [Bits.merge?] at found
  split at found
  · rename_i same
    cases found
    obtain ⟨toFirst, toSecond⟩ := forall₂_zipWith_merge same
    exact ⟨resolvesTo_iff_forall₂.mpr toFirst, resolvesTo_iff_forall₂.mpr toSecond⟩
  · cases found

end Bits
end Multiport
