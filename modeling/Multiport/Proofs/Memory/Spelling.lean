import Multiport.Memory.Attributes
import Multiport.Proofs.Outcome

/-! What attributes spell. Attributes are read in a fixed order, and the first that is at fault is
the one that counts; if none is, what they spell has to describe a memory. A descriptor that is
written and read back is either the same or refused, and attributes that are read spell just the
descriptor that was read. -/
namespace Multiport

/-- The attribute can be stored: an integer is the signed reading of 64 bits. -/
def Attribute.Stored : Attribute → Prop
  | int value => -range ≤ 2 * value ∧ 2 * value < range
  | text _ => True

instance : DecidablePred Attribute.Stored
  | .int _ => inferInstanceAs (Decidable (_ ∧ _))
  | .text _ => inferInstanceAs (Decidable True)

namespace Memory

namespace Parameter

/-- The attributes in the order in which they are read. -/
def readingOrder : List Parameter :=
  [policy, readPorts, writePorts, readWritePorts, dataWidth, depth, readLatency, writeLatency]

/-- What is wrong with an integer that is given for an attribute, if anything. -/
def misfit? : Parameter → Int → Option AttributeFault
  | policy, code => if code ∈ [0, 1, 2] then none else some (.unknownPolicy code)
  | _, value => if value < 0 then some (.negative value) else none

/-- What is wrong with an attribute of a module, if anything. -/
def fault? (module : String) (attributes : Attributes) (parameter : Parameter) :
    Option LoweringError :=
  match attributes.get? parameter.name with
  | none => some (.missingAttribute module parameter.name)
  | some (.text _) => some (.invalidAttribute module parameter.name .notInteger)
  | some (.int value) =>
      (parameter.misfit? value).map (.invalidAttribute module parameter.name)

/-- The integer that is given for an attribute, if one is. -/
def given (attributes : Attributes) (parameter : Parameter) : Int :=
  match attributes.get? parameter.name with
  | some (.int value) => value
  | some (.text _) | none => 0

private theorem misfit?_of_ne {parameter : Parameter} (numeric : parameter ≠ policy)
    (value : Int) :
    parameter.misfit? value = if value < 0 then some (.negative value) else none := by
  cases parameter with
  | policy => exact absurd rfl numeric
  | _ => rfl

private theorem readNat_eq (module : String) (attributes : Attributes) {parameter : Parameter}
    (numeric : parameter ≠ policy) :
    parameter.readNat module attributes =
      refuse (fault? module attributes parameter) >>= fun _ =>
        .ok (parameter.given attributes).toNat := by
  simp only [readNat, readInt, fault?, given, misfit?_of_ne numeric]
  rcases attributes.get? parameter.name with - | ⟨natural | less⟩ | words
  · rfl
  · rfl
  · simp only [ok_bind, Int.negSucc_lt_zero, ↓reduceIte]
    rfl
  · rfl

/-- The policy that an integer spells if it is not at fault. -/
def policyOf (code : Int) : CollisionPolicy :=
  if code = 1 then .old else if code = 2 then .new else .undefined

private theorem ofCode_eq (code : Int) :
    CollisionPolicy.ofCode code =
      if code ∈ [0, 1, 2] then .ok (policyOf code) else .error (.unknownPolicy code) := by
  unfold CollisionPolicy.ofCode policyOf
  by_cases undefined : code = 0
  · simp [undefined]
  by_cases old : code = 1
  · simp [old]
  by_cases new : code = 2
  · simp [new]
  simp [undefined, old, new]

private theorem readPolicy_eq (module : String) (attributes : Attributes) :
    readPolicy module attributes =
      refuse (fault? module attributes policy) >>= fun _ =>
        .ok (policyOf (policy.given attributes)) := by
  simp only [readPolicy, readInt, fault?, given, misfit?, ofCode_eq]
  rcases attributes.get? policy.name with - | ⟨code⟩ | words
  · rfl
  · by_cases known : code ∈ [0, 1, 2] <;> simp only [ok_bind, known, ↓reduceIte] <;> rfl
  · rfl

end Parameter

namespace Descriptor

/-- The descriptor that attributes spell if none of them is at fault. -/
def spelled (attributes : Attributes) : Descriptor where
  readPorts := (Parameter.readPorts.given attributes).toNat
  writePorts := (Parameter.writePorts.given attributes).toNat
  readWritePorts := (Parameter.readWritePorts.given attributes).toNat
  dataWidth := (Parameter.dataWidth.given attributes).toNat
  depth := (Parameter.depth.given attributes).toNat
  readLatency := (Parameter.readLatency.given attributes).toNat
  writeLatency := (Parameter.writeLatency.given attributes).toNat
  policy := Parameter.policyOf (Parameter.policy.given attributes)

def checked (descriptor : Descriptor) : Except LoweringError Descriptor :=
  match descriptor.validate with
  | .ok () => .ok descriptor
  | .error fault => .error (.invalidDescriptor fault)

theorem eq_of_checked {descriptor other : Descriptor} (passed : descriptor.checked = .ok other) :
    descriptor = other := by
  unfold checked at passed
  split at passed
  · exact Except.ok.inj passed
  · cases passed

private theorem refuse_findSome?_cons {Result : Type} (module : String) (attributes : Attributes)
    (first : Parameter) (rest : List Parameter) (next : Except LoweringError Result) :
    (refuse ((first :: rest).findSome? (Parameter.fault? module attributes)) >>= fun _ => next) =
      refuse (first.fault? module attributes) >>= fun _ =>
        refuse (rest.findSome? (Parameter.fault? module attributes)) >>= fun _ => next := by
  rw [List.findSome?_cons]
  cases first.fault? module attributes <;> rfl

/-- Attributes give the descriptor they spell, unless one is at fault or no memory fits it. -/
theorem ofAttributes_eq (module : String) (attributes : Attributes) :
    ofAttributes module attributes =
      refuse (Parameter.readingOrder.findSome? (Parameter.fault? module attributes)) >>= fun _ =>
        (spelled attributes).checked := by
  have reads {parameter : Parameter} (numeric : parameter ≠ .policy) :=
    Parameter.readNat_eq module attributes numeric
  have nothing : refuse (([] : List Parameter).findSome? (Parameter.fault? module attributes)) =
    .ok () := rfl
  simp only [Parameter.readingOrder, refuse_findSome?_cons, nothing, ofAttributes,
    Parameter.readPolicy_eq, reads, ne_eq, reduceCtorEq, not_false_eq_true, bind_assoc, ok_bind]
  rfl

theorem get?_toAttributes (descriptor : Descriptor) (parameter : Parameter) :
    descriptor.toAttributes.get? parameter.name = some (parameter.value descriptor) := by
  have names : (Parameter.all.map fun parameter =>
      (parameter.name, parameter.value descriptor)).map Prod.fst =
        Parameter.all.map Parameter.name := by
    rw [List.map_map]
    rfl
  have distinct : (Parameter.all.map Parameter.name).Nodup := by decide
  rw [Table.get?_eq_some_iff, toAttributes, Table.ofList,
    Table.entries_insertAll _ (names ▸ distinct)]
  refine List.mem_append_right _ (List.mem_map.mpr ⟨parameter, ?_, rfl⟩)
  cases parameter <;> decide

/-- The numbers of a descriptor by what they give, in the order in which they are written. -/
def numbers (descriptor : Descriptor) : List (Parameter × Nat) :=
  [(.readPorts, descriptor.readPorts), (.writePorts, descriptor.writePorts),
    (.readWritePorts, descriptor.readWritePorts), (.dataWidth, descriptor.dataWidth),
    (.depth, descriptor.depth), (.readLatency, descriptor.readLatency),
    (.writeLatency, descriptor.writeLatency)]

def Fits (descriptor : Descriptor) : Prop :=
  ∀ entry ∈ descriptor.numbers, entry.2 < Attribute.range

instance (descriptor : Descriptor) : Decidable descriptor.Fits :=
  inferInstanceAs (Decidable (∀ entry ∈ descriptor.numbers, _))

/-- The first number of a descriptor that is stored as a negative integer, if any. -/
def overflow? (descriptor : Descriptor) : Option (Parameter × Nat) :=
  descriptor.numbers.find? fun entry => Attribute.range ≤ 2 * entry.2

/-- What is wrong with a number that is stored as a negative integer. -/
def overflow (module : String) (entry : Parameter × Nat) : LoweringError :=
  .invalidAttribute module entry.1.name (.negative (entry.2 - Attribute.range))

section

variable {descriptor : Descriptor} {entry : Parameter × Nat}

private theorem value_of_mem_numbers (member : entry ∈ descriptor.numbers) :
    entry.1 ≠ .policy ∧ entry.1.value descriptor = .ofNat entry.2 := by
  simp only [numbers, List.mem_cons, List.not_mem_nil, or_false] at member
  rcases member with rfl | rfl | rfl | rfl | rfl | rfl | rfl <;> exact ⟨nofun, rfl⟩

private theorem fault?_policy (module : String) (descriptor : Descriptor) :
    Parameter.policy.fault? module descriptor.toAttributes = none := by
  simp only [Parameter.fault?, get?_toAttributes, Parameter.value, Parameter.misfit?]
  cases descriptor.policy <;> rfl

private theorem fault?_number (module : String) (member : entry ∈ descriptor.numbers)
    (fits : entry.2 < Attribute.range) :
    entry.1.fault? module descriptor.toAttributes =
      if Attribute.range ≤ 2 * entry.2 then some (overflow module entry) else none := by
  obtain ⟨numeric, value⟩ := value_of_mem_numbers member
  simp only [Parameter.fault?, get?_toAttributes, value]
  by_cases large : Attribute.range ≤ 2 * entry.2
  · have negative : (entry.2 : Int) - Attribute.range < 0 := by omega
    simp only [Attribute.ofNat_of_le large fits, Parameter.misfit?_of_ne numeric, negative,
      large, ↓reduceIte, Option.map_some, overflow]
  · have natural : ¬(entry.2 : Int) < 0 := by omega
    simp only [Attribute.ofNat_of_lt (Nat.lt_of_not_le large), Parameter.misfit?_of_ne numeric,
      natural, large, ↓reduceIte, Option.map_none]

private theorem given_number (member : entry ∈ descriptor.numbers)
    (small : 2 * entry.2 < Attribute.range) :
    (entry.1.given descriptor.toAttributes).toNat = entry.2 := by
  obtain ⟨numeric, value⟩ := value_of_mem_numbers member
  simp only [Parameter.given, get?_toAttributes, value, Attribute.ofNat_of_lt small,
    Int.toNat_natCast]

private theorem policyOf_given (descriptor : Descriptor) :
    Parameter.policyOf (Parameter.policy.given descriptor.toAttributes) = descriptor.policy := by
  simp only [Parameter.given, get?_toAttributes, Parameter.value]
  cases descriptor.policy <;> rfl

end

private theorem spelled_toAttributes {descriptor : Descriptor}
    (small : ∀ entry ∈ descriptor.numbers, 2 * entry.2 < Attribute.range) :
    spelled descriptor.toAttributes = descriptor := by
  have given : ∀ entry ∈ descriptor.numbers,
      (entry.1.given descriptor.toAttributes).toNat = entry.2 :=
    fun entry member => given_number member (small entry member)
  simp only [numbers, List.forall_mem_cons] at given
  obtain ⟨read, write, readWrite, width, depth, readLatency, writeLatency, -⟩ := given
  simp only [spelled, policyOf_given, read, write, readWrite, width, depth, readLatency,
    writeLatency]

private theorem findSome?_numbers (module : String) {descriptor : Descriptor}
    (fits : descriptor.Fits) {entries : List (Parameter × Nat)}
    (among : ∀ entry ∈ entries, entry ∈ descriptor.numbers) :
    (entries.map Prod.fst).findSome? (Parameter.fault? module descriptor.toAttributes) =
      (entries.find? fun entry => Attribute.range ≤ 2 * entry.2).map (overflow module) := by
  induction entries with
  | nil => rfl
  | cons first rest ih =>
    obtain ⟨member, others⟩ := List.forall_mem_cons.mp among
    rw [List.map_cons, List.findSome?_cons, fault?_number module member (fits _ member)]
    by_cases large : Attribute.range ≤ 2 * first.2
    · simp [large]
    · simp [large, ih others]

/-- Attributes that a descriptor writes give that descriptor if a memory fits it, unless one of
its numbers is stored as a negative integer. -/
theorem ofAttributes_toAttributes (module : String) {descriptor : Descriptor}
    (fits : descriptor.Fits) :
    ofAttributes module descriptor.toAttributes =
      refuse (descriptor.overflow?.map (overflow module)) >>= fun _ => descriptor.checked := by
  have order : Parameter.readingOrder = .policy :: descriptor.numbers.map Prod.fst := rfl
  rw [ofAttributes_eq, order, List.findSome?_cons, fault?_policy,
    findSome?_numbers module fits fun _ member => member, ← overflow?]
  cases found : descriptor.overflow? with
  | some entry => simp only [Option.map_some, refuse_some, error_bind]
  | none =>
    have small : ∀ entry ∈ descriptor.numbers, 2 * entry.2 < Attribute.range := by
      simpa [overflow?] using found
    rw [spelled_toAttributes small]

private theorem get?_of_fault?_eq_none {module : String} {attributes : Attributes}
    {parameter : Parameter}
    (stored : ∀ entry ∈ attributes.entries, entry.2.Stored)
    (correct : parameter.fault? module attributes = none) :
    attributes.get? parameter.name = some (parameter.value (spelled attributes)) := by
  simp only [Parameter.fault?] at correct
  split at correct
  · cases correct
  · cases correct
  · rename_i value found
    obtain ⟨-, below⟩ := stored _ (Table.get?_eq_some_iff.mp found)
    have given : parameter.given attributes = value := by
      rw [Parameter.given, found]
    rw [Option.map_eq_none_iff] at correct
    rw [found]
    by_cases numeric : parameter = .policy
    · subst numeric
      have code : value ∈ [0, 1, 2] := by
        rw [Parameter.misfit?] at correct
        split at correct
        · assumption
        · cases correct
      have known : value = (Parameter.policyOf value).code :=
        CollisionPolicy.ofCode_eq_ok_iff.mp (by rw [Parameter.ofCode_eq, if_pos code])
      rw [Parameter.value, spelled, given, ← known]
    · have natural : 0 ≤ value := by
        simpa [Parameter.misfit?_of_ne numeric] using correct
      have number : parameter.value (spelled attributes) = .ofNat value.toNat := by
        rw [← given]
        cases parameter with
        | policy => exact absurd rfl numeric
        | _ => rfl
      rw [number, Attribute.ofNat_of_lt (by omega), Int.toNat_of_nonneg natural]

/-- Writing a descriptor and reading it back gives the descriptor, if its numbers are stored as
they are and a memory fits it, and otherwise the first fault. Attributes that can be stored and
are read agree with those that the descriptor writes. -/
theorem attributes_round_trip (module : String) :
    (∀ descriptor : Descriptor, descriptor.Fits →
      (∀ entry, descriptor.overflow? = some entry →
        ofAttributes module descriptor.toAttributes =
          .error (.invalidAttribute module entry.1.name
            (.negative (entry.2 - Attribute.range)))) ∧
      ((∀ entry ∈ descriptor.numbers, 2 * entry.2 < Attribute.range) →
        (∀ fault, descriptor.validate = .error fault →
          ofAttributes module descriptor.toAttributes = .error (.invalidDescriptor fault)) ∧
        (descriptor.validate = .ok () →
          ofAttributes module descriptor.toAttributes = .ok descriptor)) ∧
      ∀ other, ofAttributes module descriptor.toAttributes = .ok other → other = descriptor) ∧
    ∀ (attributes : Attributes) (descriptor : Descriptor),
      (∀ entry ∈ attributes.entries, entry.2.Stored) →
      ofAttributes module attributes = .ok descriptor →
      ∀ parameter : Parameter,
        attributes.get? parameter.name = descriptor.toAttributes.get? parameter.name := by
  refine ⟨fun descriptor fits => ⟨?_, ?_, ?_⟩, ?_⟩
  · intro entry large
    rw [ofAttributes_toAttributes module fits, large]
    rfl
  · intro small
    have none : descriptor.overflow? = none := by
      simpa [overflow?] using small
    rw [ofAttributes_toAttributes module fits, none]
    exact ⟨fun fault refused => by simp [checked, refused], fun valid => by simp [checked, valid]⟩
  · intro other read
    rw [ofAttributes_toAttributes module fits] at read
    obtain ⟨-, -, same⟩ := bind_eq_ok_iff.mp read
    exact (eq_of_checked same).symm
  · intro attributes descriptor stored read parameter
    rw [ofAttributes_eq] at read
    obtain ⟨done, correct, same⟩ := bind_eq_ok_iff.mp read
    obtain rfl := eq_of_checked same
    rw [get?_toAttributes]
    have order : parameter ∈ Parameter.readingOrder := by
      cases parameter <;> decide
    have faultless := List.findSome?_eq_none_iff.mp (refuse_eq_ok_iff.mp correct)
    exact get?_of_fault?_eq_none stored (faultless parameter order)

/-- A descriptor with two numbers that are stored as negative integers. -/
def tooDeep : Descriptor :=
  (ofSize 8 9223372036854775808).withLatency 9223372036854775809 1

/-- The attributes of a small memory in another order, with one that is not read. -/
def shuffled : Attributes :=
  .ofList [("readUnderWrite", .int 1), ("vendor", .text "none"), ("writeLatency", .int 2),
    ("readLatency", .int 0), ("depth", .int 5), ("width", .int 4), ("numReadWritePorts", .int 1),
    ("numWritePorts", .int 0), ("numReadPorts", .int 3)]

theorem attributes_round_trip_samples :
    (tooDeep.Fits ∧ tooDeep.overflow? = some (.depth, 9223372036854775808) ∧
      ofAttributes "m" tooDeep.toAttributes =
        .error (.invalidAttribute "m" "depth" (.negative (-9223372036854775808)))) ∧
    (((ofSize 8 0).validate = .error .zeroDepth ∧
      ofAttributes "m" (ofSize 8 0).toAttributes = .error (.invalidDescriptor .zeroDepth))) ∧
    ((ofSize 8 4).validate = .ok () ∧
      ofAttributes "m" (ofSize 8 4).toAttributes = .ok (ofSize 8 4)) ∧
    (∀ other, ofAttributes "m" (ofSize 8 4).toAttributes = .ok other → other = ofSize 8 4) ∧
    (∀ entry ∈ shuffled.entries, entry.2.Stored) ∧
    ofAttributes "m" shuffled = .ok ⟨3, 0, 1, 4, 5, 0, 2, .old⟩ ∧
    ∀ parameter : Parameter, shuffled.get? parameter.name =
      (toAttributes ⟨3, 0, 1, 4, 5, 0, 2, .old⟩).get? parameter.name := by
  have deepFits : tooDeep.Fits := by decide
  have emptyFits : (ofSize 8 0).Fits := by decide
  have smallFits : (ofSize 8 4).Fits := by decide
  have stored : ∀ entry ∈ shuffled.entries, entry.2.Stored := by decide
  obtain ⟨written, agreed⟩ := attributes_round_trip "m"
  refine ⟨⟨deepFits, rfl, (written tooDeep deepFits).1 _ rfl⟩,
    ⟨rfl, ((written _ emptyFits).2.1 (by decide)).1 _ rfl⟩,
    ⟨rfl, ((written _ smallFits).2.1 (by decide)).2 rfl⟩, (written _ smallFits).2.2,
    stored, rfl, agreed _ _ stored rfl⟩

end Descriptor
end Memory
end Multiport
