/-! Names that are not used yet. A wanted name that is taken gets the smallest number after an
underscore, counted from one, that makes it free. One number more than there are used names is
always enough to find one: `freshName_not_mem`. -/
namespace Multiport

def suffixed (name : String) (number : Nat) : String := name ++ "_" ++ toString number

/-- The smallest number that makes a name free, if one of the first so many does. -/
def freeNumber? (used : List String) (name : String) (bound : Nat) : Option Nat :=
  (List.range' 1 bound).find? fun number => suffixed name number ∉ used

/-- The wanted name if it is free, and otherwise the name with the smallest number that makes it
free. -/
def freshName (used : List String) (name : String) : String :=
  if name ∈ used then
    match freeNumber? used name (used.length + 1) with
    | some number => suffixed name number
    | none => name
  else name

theorem freshName_of_not_mem {used : List String} {name : String} (free : name ∉ used) :
    freshName used name = name := by
  simp [freshName, free]

theorem toString_nat_injective {first second : Nat}
    (same : toString first = toString second) : first = second := by
  have digits : Nat.toDigits 10 first = Nat.toDigits 10 second := by
    simpa [Nat.toString_eq_ofList_toDigits] using congrArg String.toList same
  calc first = Nat.ofDigitChars 10 (Nat.toDigits 10 first) 0 :=
        (Nat.ofDigitChars_toDigits (by decide) (by decide)).symm
    _ = Nat.ofDigitChars 10 (Nat.toDigits 10 second) 0 := by rw [digits]
    _ = second := Nat.ofDigitChars_toDigits (by decide) (by decide)

theorem suffixed_inj {name : String} {first second : Nat} :
    suffixed name first = suffixed name second ↔ first = second := by
  constructor
  · intro same
    exact toString_nat_injective ((String.append_right_inj (name ++ "_")).mp same)
  · rintro rfl
    rfl

private theorem length_le_of_nodup_of_forall_mem (names : List String) :
    ∀ used : List String, names.Nodup → (∀ name ∈ names, name ∈ used) →
      names.length ≤ used.length := by
  induction names with
  | nil => intros; exact Nat.zero_le _
  | cons name rest ih =>
    intro used distinct taken
    obtain ⟨other, distinct⟩ := List.nodup_cons.mp distinct
    have member : name ∈ used := taken name List.mem_cons_self
    have shorter := ih (used.erase name) distinct <| by
      intro next inRest
      have different : next ≠ name := fun same => other (same ▸ inRest)
      exact (List.mem_erase_of_ne different).mpr (taken next (List.mem_cons_of_mem name inRest))
    have positive := List.length_pos_of_mem member
    rw [List.length_erase_of_mem member] at shorter
    rw [List.length_cons]
    omega

/-- Among one number more than there are used names, one makes a name free. -/
theorem freeNumber?_isSome (used : List String) (name : String) :
    (freeNumber? used name (used.length + 1)).isSome = true := by
  rw [Option.isSome_iff_ne_none]
  intro missing
  have taken : ∀ number ∈ List.range' 1 (used.length + 1), suffixed name number ∈ used := by
    intro number member
    simpa using List.find?_eq_none.mp missing number member
  have distinct : ((List.range' 1 (used.length + 1)).map (suffixed name)).Nodup :=
    List.Pairwise.map (suffixed name) (fun _ _ different same => different (suffixed_inj.mp same))
      List.nodup_range'
  have bound := length_le_of_nodup_of_forall_mem _ used distinct fun candidate member => by
    obtain ⟨number, inRange, rfl⟩ := List.mem_map.mp member
    exact taken number inRange
  rw [List.length_map, List.length_range'] at bound
  omega

theorem freshName_not_mem (used : List String) (name : String) : freshName used name ∉ used := by
  unfold freshName
  split
  · obtain ⟨number, found⟩ := Option.isSome_iff_exists.mp (freeNumber?_isSome used name)
    rw [found]
    simpa using List.find?_some found
  · assumption

end Multiport
