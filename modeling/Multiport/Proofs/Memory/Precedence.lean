import Multiport.Proofs.Memory.Spelling

/-! Which fault of attributes counts. Attributes can be at fault in several ways at once; the first
attribute at fault decides, in the order in which they are read, and only if none is, the first
check that the descriptor fails. Nothing else about the attributes matters, neither their order nor
what stands under other names. -/
namespace Multiport

/-- What is found under a name does not depend on the order of the entries. -/
theorem Table.get?_eq_of_perm {Value : Type} {first second : Table Value}
    (perm : first.entries.Perm second.entries) (name : String) :
    first.get? name = second.get? name :=
  Option.ext fun value => by rw [get?_eq_some_iff, get?_eq_some_iff, perm.mem_iff]

namespace Memory

namespace Parameter

variable {module : String} {attributes : Attributes} {parameter : Parameter}

/-- The integers that an attribute may hold. -/
def Allows : Parameter → Int → Prop
  | policy, code => code = 0 ∨ code = 1 ∨ code = 2
  | _, value => 0 ≤ value

/-- How an attribute of a module is at fault. -/
inductive FaultyIn (module : String) (attributes : Attributes) (parameter : Parameter) :
    LoweringError → Prop where
  | missing (absent : attributes.get? parameter.name = none) :
      FaultyIn module attributes parameter (.missingAttribute module parameter.name)
  | notInteger {words : String} (held : attributes.get? parameter.name = some (.text words)) :
      FaultyIn module attributes parameter
        (.invalidAttribute module parameter.name .notInteger)
  | negative {value : Int} (held : attributes.get? parameter.name = some (.int value))
      (number : parameter ≠ policy) (below : value < 0) :
      FaultyIn module attributes parameter
        (.invalidAttribute module parameter.name (.negative value))
  | unknownPolicy {value : Int} (held : attributes.get? parameter.name = some (.int value))
      (isPolicy : parameter = policy) (unknown : value ≠ 0 ∧ value ≠ 1 ∧ value ≠ 2) :
      FaultyIn module attributes parameter
        (.invalidAttribute module parameter.name (.unknownPolicy value))

theorem misfit?_eq_none_iff {value : Int} :
    parameter.misfit? value = none ↔ parameter.Allows value := by
  cases parameter with
  | policy =>
    simp only [misfit?, Allows, List.mem_cons, List.not_mem_nil, or_false]
    split <;> simp_all
  | _ => simp [misfit?, Allows]

theorem misfit?_eq_some_iff {value : Int} {fault : AttributeFault} :
    parameter.misfit? value = some fault ↔
      (parameter ≠ policy ∧ value < 0 ∧ fault = .negative value) ∨
        parameter = policy ∧ (value ≠ 0 ∧ value ≠ 1 ∧ value ≠ 2) ∧
          fault = .unknownPolicy value := by
  cases parameter <;> simp [misfit?, eq_comm, and_assoc]

theorem fault?_eq_some_iff {error : LoweringError} :
    fault? module attributes parameter = some error ↔
      FaultyIn module attributes parameter error := by
  constructor
  · intro found
    unfold fault? at found
    split at found
    · rename_i absent
      cases found
      exact .missing absent
    · rename_i held
      cases found
      exact .notInteger held
    · rename_i held
      obtain ⟨fault, misfit, rfl⟩ := Option.map_eq_some_iff.mp found
      rcases misfit?_eq_some_iff.mp misfit with ⟨number, below, rfl⟩ | ⟨isPolicy, unknown, rfl⟩
      · exact .negative held number below
      · exact .unknownPolicy held isPolicy unknown
  · intro fault
    cases fault with
    | missing absent => simp [fault?, absent]
    | notInteger held => simp [fault?, held]
    | negative held number below =>
      simp [fault?, held, misfit?_eq_some_iff.mpr (.inl ⟨number, below, rfl⟩)]
    | unknownPolicy held isPolicy unknown =>
      simp [fault?, held, misfit?_eq_some_iff.mpr (.inr ⟨isPolicy, unknown, rfl⟩)]

theorem fault?_eq_none_iff :
    fault? module attributes parameter = none ↔
      ∃ value, attributes.get? parameter.name = some (.int value) ∧ parameter.Allows value := by
  unfold fault?
  split
  · rename_i absent
    simp [absent]
  · rename_i held
    simp [held]
  · rename_i held
    simp [held, misfit?_eq_none_iff]

/-- The integer that spells what a descriptor has for an attribute. -/
def integer (descriptor : Descriptor) : Parameter → Int
  | readPorts => descriptor.readPorts
  | writePorts => descriptor.writePorts
  | readWritePorts => descriptor.readWritePorts
  | dataWidth => descriptor.dataWidth
  | depth => descriptor.depth
  | readLatency => descriptor.readLatency
  | writeLatency => descriptor.writeLatency
  | policy => descriptor.policy.code

theorem allows_integer (descriptor : Descriptor) (parameter : Parameter) :
    parameter.Allows (parameter.integer descriptor) := by
  cases parameter with
  | policy =>
    simp only [Allows, integer]
    cases descriptor.policy <;> simp [CollisionPolicy.code]
  | _ => exact Int.natCast_nonneg _

end Parameter

namespace Descriptor

/-- The attributes hold what the descriptor has. -/
def SpelledBy (descriptor : Descriptor) (attributes : Attributes) : Prop :=
  ∀ parameter : Parameter,
    attributes.get? parameter.name = some (.int (parameter.integer descriptor))

/-- The check that names a fault fails. -/
def Fails (descriptor : Descriptor) : DescriptorFault → Prop
  | .zeroWidth => descriptor.dataWidth = 0
  | .zeroDepth => descriptor.depth = 0
  | .longReadLatency latency => latency = descriptor.readLatency ∧ maxLatency < latency
  | .longWriteLatency latency => latency = descriptor.writeLatency ∧ maxLatency < latency
  | .writeWithoutLatency => 0 < descriptor.writePorts ∧ descriptor.writeLatency = 0
  | .readWriteWithoutLatency =>
      0 < descriptor.readWritePorts ∧ descriptor.readLatency = 0 ∧ descriptor.writeLatency = 0

/-- The faults in the order in which they are checked. -/
def checkOrder (descriptor : Descriptor) : List DescriptorFault :=
  [.zeroWidth, .zeroDepth, .longReadLatency descriptor.readLatency,
    .longWriteLatency descriptor.writeLatency, .writeWithoutLatency, .readWriteWithoutLatency]

instance (descriptor : Descriptor) : DecidablePred descriptor.Fails
  | .zeroWidth | .zeroDepth => inferInstanceAs (Decidable (_ = 0))
  | .longReadLatency _ | .longWriteLatency _ | .writeWithoutLatency | .readWriteWithoutLatency =>
      inferInstanceAs (Decidable (_ ∧ _))

variable {descriptor : Descriptor}

private theorem refuse_find?_cons (fault : DescriptorFault) (rest : List DescriptorFault) :
    refuse ((fault :: rest).find? fun fault => descriptor.Fails fault) =
      if descriptor.Fails fault then .error fault
      else refuse (rest.find? fun fault => descriptor.Fails fault) := by
  by_cases fails : descriptor.Fails fault <;> simp [fails]

theorem validate_eq (descriptor : Descriptor) :
    descriptor.validate =
      refuse (descriptor.checkOrder.find? fun fault => descriptor.Fails fault) := by
  have both : max descriptor.readLatency descriptor.writeLatency = 0 ↔
      descriptor.readLatency = 0 ∧ descriptor.writeLatency = 0 := by omega
  rw [checkOrder]
  simp only [refuse_find?_cons, List.find?_nil, refuse_none]
  simp only [validate, both, Fails, true_and]
  -- only the ways to decide the conditions still differ
  rfl

theorem validate_eq_error_iff {fault : DescriptorFault} :
    descriptor.validate = .error fault ↔ First descriptor.checkOrder descriptor.Fails fault := by
  rw [validate_eq, ← find?_eq_some_iff_first]
  cases descriptor.checkOrder.find? fun fault => descriptor.Fails fault <;> simp

section

variable {module : String} {attributes : Attributes}

/-- Attributes spell no other descriptor than the one that is read from them. -/
theorem SpelledBy.eq_spelled (spells : descriptor.SpelledBy attributes) :
    descriptor = spelled attributes := by
  have given (parameter : Parameter) :
      parameter.given attributes = parameter.integer descriptor := by
    rw [Parameter.given, spells parameter]
  have policy : Parameter.policyOf descriptor.policy.code = descriptor.policy := by
    cases descriptor.policy <;> rfl
  simp only [spelled, given, Parameter.integer, Int.toNat_natCast, policy]

/-- Attributes that hold what they may hold spell the descriptor that is read from them. -/
theorem spelledBy_spelled
    (allowed : ∀ parameter : Parameter, ∃ value,
      attributes.get? parameter.name = some (.int value) ∧ parameter.Allows value) :
    (spelled attributes).SpelledBy attributes := by
  intro parameter
  obtain ⟨value, held, allows⟩ := allowed parameter
  have given : parameter.given attributes = value := by
    rw [Parameter.given, held]
  have same : value = parameter.integer (spelled attributes) := by
    cases parameter with
    | policy =>
      simp only [Parameter.integer, spelled, given]
      rcases allows with rfl | rfl | rfl <;> rfl
    | _ =>
      simp only [Parameter.integer, spelled, given]
      exact (Int.toNat_of_nonneg allows).symm
  rw [held, ← same]

theorem exists_spelledBy_iff :
    (∃ descriptor : Descriptor, descriptor.SpelledBy attributes) ↔
      ∀ parameter : Parameter, ∃ value,
        attributes.get? parameter.name = some (.int value) ∧ parameter.Allows value := by
  constructor
  · rintro ⟨descriptor, spells⟩ parameter
    exact ⟨_, spells parameter, parameter.allows_integer descriptor⟩
  · exact fun allowed => ⟨_, spelledBy_spelled allowed⟩

/-- The fault for which attributes are refused: that of the first attribute at fault, or else of the
first check that the descriptor fails. -/
inductive AttributesFault (module : String) (attributes : Attributes) : LoweringError → Prop where
  | parameter {parameter : Parameter} {error : LoweringError}
      (first : First Parameter.readingOrder
        (fun other => ∃ error, other.FaultyIn module attributes error) parameter)
      (fault : parameter.FaultyIn module attributes error) :
      AttributesFault module attributes error
  | check {descriptor : Descriptor} {fault : DescriptorFault}
      (spells : descriptor.SpelledBy attributes)
      (first : First descriptor.checkOrder descriptor.Fails fault) :
      AttributesFault module attributes (.invalidDescriptor fault)

/-- No attribute is at fault exactly if the attributes spell a descriptor. -/
theorem findSome?_fault?_eq_none_iff :
    Parameter.readingOrder.findSome? (Parameter.fault? module attributes) = none ↔
      ∃ descriptor : Descriptor, descriptor.SpelledBy attributes := by
  have all (parameter : Parameter) : parameter ∈ Parameter.readingOrder := by
    cases parameter <;> decide
  rw [List.findSome?_eq_none_iff, exists_spelledBy_iff]
  simp only [Parameter.fault?_eq_none_iff, all, true_imp_iff]

theorem findSome?_fault?_eq_some_iff {error : LoweringError} :
    Parameter.readingOrder.findSome? (Parameter.fault? module attributes) = some error ↔
      ∃ parameter, First Parameter.readingOrder
          (fun other => ∃ error, other.FaultyIn module attributes error) parameter ∧
        parameter.FaultyIn module attributes error := by
  have clean (parameter : Parameter) : parameter.fault? module attributes = none ↔
      ¬∃ error, parameter.FaultyIn module attributes error := by
    simp only [← Parameter.fault?_eq_some_iff, Option.eq_none_iff_forall_ne_some, not_exists, ne_eq]
  rw [findSome?_eq_some_iff_first clean]
  simp only [Parameter.fault?_eq_some_iff]

theorem checked_eq_ok_iff {other : Descriptor} :
    descriptor.checked = .ok other ↔ descriptor = other ∧ descriptor.validate = .ok () := by
  unfold checked
  cases descriptor.validate <;> simp

theorem checked_eq_error_iff {error : LoweringError} :
    descriptor.checked = .error error ↔
      ∃ fault, descriptor.validate = .error fault ∧ error = .invalidDescriptor fault := by
  unfold checked
  cases descriptor.validate <;> simp [eq_comm]

/-- Attributes that spell a descriptor are read as it, if a memory fits it. -/
theorem ofAttributes_of_spelledBy (spells : descriptor.SpelledBy attributes) :
    ofAttributes module attributes = descriptor.checked := by
  rw [ofAttributes_eq, findSome?_fault?_eq_none_iff.mpr ⟨descriptor, spells⟩, refuse_none, ok_bind,
    ← spells.eq_spelled]

theorem ofAttributes_eq_ok_iff :
    ofAttributes module attributes = .ok descriptor ↔
      descriptor.SpelledBy attributes ∧ descriptor.validate = .ok () := by
  constructor
  · intro read
    rw [ofAttributes_eq] at read
    obtain ⟨done, faultless, passed⟩ := bind_eq_ok_iff.mp read
    obtain ⟨other, spells⟩ := findSome?_fault?_eq_none_iff.mp (refuse_eq_ok_iff.mp faultless)
    rw [← spells.eq_spelled] at passed
    obtain ⟨rfl, valid⟩ := checked_eq_ok_iff.mp passed
    exact ⟨spells, valid⟩
  · rintro ⟨spells, valid⟩
    rw [ofAttributes_of_spelledBy spells]
    exact checked_eq_ok_iff.mpr ⟨rfl, valid⟩

theorem ofAttributes_eq_error_iff {error : LoweringError} :
    ofAttributes module attributes = .error error ↔ AttributesFault module attributes error := by
  constructor
  · intro refused
    cases found : Parameter.readingOrder.findSome? (Parameter.fault? module attributes) with
    | some cause =>
      rw [ofAttributes_eq, found] at refused
      cases refused
      obtain ⟨parameter, first, fault⟩ := findSome?_fault?_eq_some_iff.mp found
      exact .parameter first fault
    | none =>
      obtain ⟨descriptor, spells⟩ := findSome?_fault?_eq_none_iff.mp found
      rw [ofAttributes_of_spelledBy spells] at refused
      obtain ⟨fault, failed, rfl⟩ := checked_eq_error_iff.mp refused
      exact .check spells (validate_eq_error_iff.mp failed)
  · intro fault
    cases fault with
    | parameter first fault =>
      rw [ofAttributes_eq, findSome?_fault?_eq_some_iff.mpr ⟨_, first, fault⟩]
      rfl
    | check spells first =>
      rw [ofAttributes_of_spelledBy spells]
      exact checked_eq_error_iff.mpr ⟨_, validate_eq_error_iff.mpr first, rfl⟩

/-- Only what stands under the names of the eight attributes matters. -/
theorem ofAttributes_congr {other : Attributes}
    (same : ∀ parameter : Parameter,
      other.get? parameter.name = attributes.get? parameter.name) :
    ofAttributes module other = ofAttributes module attributes := by
  simp only [ofAttributes, Parameter.readPolicy, Parameter.readNat, Parameter.readInt, same]

end

/-- Attributes are read exactly if each of the eight holds an integer that it may hold and the
descriptor they spell describes a memory. Otherwise they are refused for the first attribute at
fault in the order of reading, and, if there is none, for the first check that the descriptor
fails. The order of the attributes does not matter, nor does any attribute under another name. -/
theorem attributes_read_or_first_fault (module : String) (attributes : Attributes) :
    (∀ descriptor, ofAttributes module attributes = .ok descriptor ↔
      descriptor.SpelledBy attributes ∧ descriptor.validate = .ok ()) ∧
    ((∃ descriptor : Descriptor, descriptor.SpelledBy attributes) ↔
      ∀ parameter : Parameter, ∃ value,
        attributes.get? parameter.name = some (.int value) ∧ parameter.Allows value) ∧
    (∀ error, ofAttributes module attributes = .error error ↔
      AttributesFault module attributes error) ∧
    (∀ other : Attributes, other.entries.Perm attributes.entries →
      ofAttributes module other = ofAttributes module attributes) ∧
    ∀ name, (∀ parameter : Parameter, name ≠ parameter.name) →
      (∀ value, ofAttributes module (attributes.insert name value) =
        ofAttributes module attributes) ∧
      ofAttributes module (attributes.erase name) = ofAttributes module attributes := by
  refine ⟨fun _ => ofAttributes_eq_ok_iff, exists_spelledBy_iff,
    fun _ => ofAttributes_eq_error_iff, ?_, ?_⟩
  · exact fun other perm => ofAttributes_congr fun parameter =>
      Table.get?_eq_of_perm perm parameter.name
  · intro name foreign
    constructor
    · refine fun value => ofAttributes_congr fun parameter => ?_
      rw [Table.get?_insert, if_neg (foreign parameter).symm]
    · refine ofAttributes_congr fun parameter => ?_
      rw [Table.get?_erase, if_neg (foreign parameter).symm]

/-- Attributes at fault in many ways: a policy that is none, a depth that is no integer, no width,
and a negative number of ports. -/
def faultyThroughout : Attributes :=
  .ofList [("numReadPorts", .int (-1)), ("depth", .text "deep"), ("readUnderWrite", .int 3)]

theorem attributes_read_or_first_fault_samples :
    AttributesFault "m" faultyThroughout
      (.invalidAttribute "m" "readUnderWrite" (.unknownPolicy 3)) ∧
    SpelledBy ⟨3, 0, 1, 4, 5, 0, 2, .old⟩ shuffled ∧
    ofAttributes "m" ⟨shuffled.entries.reverse, by decide⟩ = ofAttributes "m" shuffled ∧
    ofAttributes "m" (shuffled.insert "vendor" (.int 4)) = ofAttributes "m" shuffled ∧
    ofAttributes "m" (shuffled.erase "vendor") = ofAttributes "m" shuffled := by
  have foreign (parameter : Parameter) : "vendor" ≠ parameter.name := by
    cases parameter <;> decide
  obtain ⟨-, -, refused, -⟩ := attributes_read_or_first_fault "m" faultyThroughout
  obtain ⟨read, -, -, reordered, others⟩ := attributes_read_or_first_fault "m" shuffled
  obtain ⟨inserted, erased⟩ := others "vendor" foreign
  exact ⟨(refused _).mp rfl, ((read _).mp rfl).1, reordered _ (List.reverse_perm _),
    inserted _, erased⟩

end Descriptor
end Memory
end Multiport
