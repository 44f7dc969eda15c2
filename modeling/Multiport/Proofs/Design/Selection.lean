import Mathlib.Data.List.Forall2
import Multiport.Design.Pass
import Multiport.Proofs.Memory.Assembly

namespace Multiport

open Memory (Descriptor LoweringError LoweringOptions)

/-- A module is what lowering makes of a description alone. -/
structure Module.LoweredFrom (module : Module) (options : LoweringOptions)
    (blueprint : Blueprint) : Prop where
  name : module.name = blueprint.name
  ports : module.ports = blueprint.ports
  lowered : ∃ descriptor,
    Descriptor.ofAttributes blueprint.name blueprint.attributes = .ok descriptor ∧
      Memory.lower .top blueprint.name blueprint.ports descriptor options = .ok module

namespace LoweringPass

/-- Whether a pass lowers a module of a design: the schema of its generator has the tag of the
pass, and the filter, if there is one, accepts it. -/
def chooses (pass : LoweringPass) (design : Design) (blueprint : Blueprint) : Bool :=
  (design.schema? blueprint.generator).any fun schema =>
    schema.tag == pass.options.tag && pass.filter?.all fun filter => filter blueprint

/-- Why a pass cannot process a module of a design. A generator that is not known is a fault
whatever the filter says; the others only concern what the pass chooses. -/
inductive Fault (pass : LoweringPass) (design : Design) (blueprint : Blueprint) :
    DesignError → Prop where
  | generator (unknown : design.schema? blueprint.generator = none) :
      Fault pass design blueprint (.unknownGenerator blueprint.name blueprint.generator)
  | attributes {cause : LoweringError} (chosen : pass.chooses design blueprint = true)
      (refused : Descriptor.ofAttributes blueprint.name blueprint.attributes = .error cause) :
      Fault pass design blueprint (.lowering blueprint.name cause)
  | memory {descriptor : Descriptor} {cause : LoweringError}
      (chosen : pass.chooses design blueprint = true)
      (spelled : Descriptor.ofAttributes blueprint.name blueprint.attributes = .ok descriptor)
      (refused :
        Memory.lower .top blueprint.name blueprint.ports descriptor pass.options = .error cause) :
      Fault pass design blueprint (.lowering blueprint.name cause)

/-- The error is the fault of the first module of a list that has one. -/
def FirstFault (pass : LoweringPass) (design : Design) (blueprints : List Blueprint)
    (error : DesignError) : Prop :=
  ∃ (before : List Blueprint) (blueprint : Blueprint) (rest : List Blueprint),
    blueprints = before ++ blueprint :: rest ∧
      (∀ earlier ∈ before, ∀ fault, ¬pass.Fault design earlier fault) ∧
      pass.Fault design blueprint error

variable {pass : LoweringPass} {design : Design} {blueprint : Blueprint}

theorem chooses_of_schema {schema : Schema}
    (known : design.schema? blueprint.generator = some schema) :
    pass.chooses design blueprint = pass.selects schema blueprint := by
  rw [chooses, known, selects]
  cases pass.filter? <;> simp

/-- The lowered form of a memory keeps the name and the ports of its description. -/
theorem lowerMemory_eq_ok_iff {options : LoweringOptions} {module : Module} :
    lowerMemory options blueprint = .ok module ↔ module.LoweredFrom options blueprint := by
  rw [lowerMemory, bind_eq_ok_iff]
  constructor
  · rintro ⟨descriptor, spelled, lowered⟩
    obtain ⟨valid, ⟨interface, grouped⟩, checked⟩ := Memory.checks_of_lower lowered
    obtain ⟨layout, built, again, name, ports, -, given, -⟩ :=
      Memory.lower_of_checks .top options valid grouped checked
    obtain rfl : module = built := Except.ok.inj (lowered.symm.trans again)
    exact ⟨name, ports.trans given, descriptor, spelled, lowered⟩
  · rintro ⟨-, -, found⟩
    exact found

/-- A memory is not lowered if its attributes do not spell a descriptor, or if the ports are not
those of a memory that the descriptor describes. -/
theorem lowerMemory_eq_error_iff {options : LoweringOptions} {cause : LoweringError} :
    lowerMemory options blueprint = .error cause ↔
      Descriptor.ofAttributes blueprint.name blueprint.attributes = .error cause ∨
        ∃ descriptor,
          Descriptor.ofAttributes blueprint.name blueprint.attributes = .ok descriptor ∧
            Memory.lower .top blueprint.name blueprint.ports descriptor options =
              .error cause := by
  unfold lowerMemory
  cases Descriptor.ofAttributes blueprint.name blueprint.attributes with
  | error refused => simp
  | ok descriptor => simp

/-- A module of a known generator is lowered if it is chosen, and passed over if it is not. -/
theorem lowerModule_of_schema {schema : Schema}
    (known : design.schema? blueprint.generator = some schema) :
    pass.lowerModule design blueprint =
      if pass.chooses design blueprint then
        match lowerMemory pass.options blueprint with
        | .ok lowered => .ok (some lowered)
        | .error cause => .error (.lowering blueprint.name cause)
      else .ok none := by
  rw [chooses_of_schema known, lowerModule, Design.generatorOf, known]
  rfl

theorem lowerModule_of_no_schema (unknown : design.schema? blueprint.generator = none) :
    pass.lowerModule design blueprint =
      .error (.unknownGenerator blueprint.name blueprint.generator) := by
  rw [lowerModule, Design.generatorOf, unknown]
  rfl

theorem chooses_of_no_schema (unknown : design.schema? blueprint.generator = none) :
    pass.chooses design blueprint = false := by
  rw [chooses, unknown]
  rfl

theorem lowerModule_eq_ok_iff {outcome : Option Module} :
    pass.lowerModule design blueprint = .ok outcome ↔
      (design.schema? blueprint.generator).isSome ∧
        if pass.chooses design blueprint then
          ∃ module, outcome = some module ∧ module.LoweredFrom pass.options blueprint
        else outcome = none := by
  cases known : design.schema? blueprint.generator with
  | none => simp [lowerModule_of_no_schema known]
  | some schema =>
    rw [lowerModule_of_schema known]
    by_cases chosen : pass.chooses design blueprint
    · simp only [chosen, ↓reduceIte, Option.isSome_some, true_and, ← lowerMemory_eq_ok_iff]
      cases lowerMemory pass.options blueprint with
      | error cause => simp
      | ok lowered => simp [eq_comm]
    · simp [chosen, eq_comm]

theorem lowerModule_eq_error_iff {error : DesignError} :
    pass.lowerModule design blueprint = .error error ↔ pass.Fault design blueprint error := by
  cases known : design.schema? blueprint.generator with
  | none =>
    rw [lowerModule_of_no_schema known]
    constructor
    · rintro ⟨⟩
      exact .generator known
    · intro fault
      cases fault with
      | generator _ => rfl
      | attributes chosen _ => simp [chooses_of_no_schema known] at chosen
      | memory chosen _ _ => simp [chooses_of_no_schema known] at chosen
  | some schema =>
    rw [lowerModule_of_schema known]
    constructor
    · intro failed
      by_cases chosen : pass.chooses design blueprint
      · simp only [chosen, ↓reduceIte] at failed
        split at failed
        · cases failed
        · rename_i cause refused
          cases failed
          rcases lowerMemory_eq_error_iff.mp refused with unspelled | ⟨descriptor, spelled, refused⟩
          · exact .attributes chosen unspelled
          · exact .memory chosen spelled refused
      · simp [chosen] at failed
    · intro fault
      cases fault with
      | generator unknown => simp [known] at unknown
      | attributes chosen refused =>
        rw [if_pos chosen, lowerMemory_eq_error_iff.mpr (.inl refused)]
      | memory chosen spelled refused =>
        rw [if_pos chosen, lowerMemory_eq_error_iff.mpr (.inr ⟨_, spelled, refused⟩)]

theorem lowerAll_cons_eq_ok_iff {rest : List Blueprint} {lowered : List Module} :
    pass.lowerAll design (blueprint :: rest) = .ok lowered ↔
      ∃ outcome others, pass.lowerModule design blueprint = .ok outcome ∧
        pass.lowerAll design rest = .ok others ∧ lowered = outcome.toList ++ others := by
  rw [lowerAll, bind_eq_ok_iff]
  constructor
  · rintro ⟨outcome, done, remaining⟩
    obtain ⟨others, restDone, answered⟩ := bind_eq_ok_iff.mp remaining
    cases answered
    exact ⟨outcome, others, done, restDone, rfl⟩
  · rintro ⟨outcome, others, done, restDone, rfl⟩
    exact ⟨outcome, done, bind_eq_ok_iff.mpr ⟨others, restDone, rfl⟩⟩

/-- A list of modules is lowered to the lowered forms of those that are chosen. -/
theorem lowerAll_eq_ok_iff {blueprints : List Blueprint} {lowered : List Module} :
    pass.lowerAll design blueprints = .ok lowered ↔
      (∀ blueprint ∈ blueprints, (design.schema? blueprint.generator).isSome) ∧
        List.Forall₂ (fun blueprint module => module.LoweredFrom pass.options blueprint)
          (blueprints.filter (pass.chooses design)) lowered := by
  induction blueprints generalizing lowered with
  | nil =>
    rw [List.filter_nil, List.forall₂_nil_left_iff, lowerAll, Except.ok.injEq]
    simp only [List.not_mem_nil, false_imp_iff, implies_true, true_and]
    exact eq_comm
  | cons first rest ih =>
    rw [lowerAll_cons_eq_ok_iff, List.forall_mem_cons]
    simp only [lowerModule_eq_ok_iff, ih]
    by_cases chosen : pass.chooses design first
    · simp only [if_pos chosen, List.filter_cons_of_pos chosen, List.forall₂_cons_left_iff]
      constructor
      · rintro ⟨outcome, others, ⟨known, module, rfl, made⟩, ⟨restKnown, restMade⟩, rfl⟩
        exact ⟨⟨known, restKnown⟩, module, others, made, restMade, rfl⟩
      · rintro ⟨⟨known, restKnown⟩, module, others, made, restMade, rfl⟩
        exact ⟨some module, others, ⟨known, module, rfl, made⟩, ⟨restKnown, restMade⟩, rfl⟩
    · simp only [if_neg chosen, List.filter_cons_of_neg chosen]
      constructor
      · rintro ⟨outcome, others, ⟨known, rfl⟩, ⟨restKnown, restMade⟩, rfl⟩
        exact ⟨⟨known, restKnown⟩, restMade⟩
      · rintro ⟨⟨known, restKnown⟩, restMade⟩
        exact ⟨none, lowered, ⟨known, rfl⟩, ⟨restKnown, restMade⟩, rfl⟩

/-- The first fault of a list is that of its first module, or, if that has none, the first of the
others. -/
theorem firstFault_cons_iff {rest : List Blueprint} {error : DesignError} :
    pass.FirstFault design (blueprint :: rest) error ↔
      pass.Fault design blueprint error ∨
        (∀ fault, ¬pass.Fault design blueprint fault) ∧ pass.FirstFault design rest error := by
  constructor
  · rintro ⟨before, failing, later, split, faultless, fault⟩
    cases before with
    | nil =>
      obtain ⟨rfl, -⟩ := List.cons.inj split
      exact .inl fault
    | cons first before =>
      obtain ⟨rfl, rfl⟩ := List.cons.inj split
      obtain ⟨clean, others⟩ := List.forall_mem_cons.mp faultless
      exact .inr ⟨clean, before, failing, later, rfl, others, fault⟩
  · rintro (fault | ⟨clean, before, failing, later, rfl, faultless, fault⟩)
    · exact ⟨[], blueprint, rest, rfl, by simp, fault⟩
    · exact ⟨blueprint :: before, failing, later, rfl,
        List.forall_mem_cons.mpr ⟨clean, faultless⟩, fault⟩

/-- A list of modules is not lowered exactly for the fault of the first that has one. -/
theorem lowerAll_eq_error_iff {blueprints : List Blueprint} {error : DesignError} :
    pass.lowerAll design blueprints = .error error ↔ pass.FirstFault design blueprints error := by
  induction blueprints with
  | nil => simp [lowerAll, FirstFault]
  | cons first rest ih =>
    rw [firstFault_cons_iff, ← ih, lowerAll]
    simp only [← lowerModule_eq_error_iff]
    cases pass.lowerModule design first with
    | error cause => simp
    | ok outcome =>
      rw [ok_bind]
      cases pass.lowerAll design rest <;> simp

end LoweringPass
end Multiport
