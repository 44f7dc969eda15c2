import Mathlib.Data.List.Nodup
import Multiport.Proofs.Design.Reachable
import Multiport.Proofs.Design.Selection

/-! What a pass does to a design. Every lowered module keeps its name, and in a design that
operations lead to each module is found under its name. So no replacement is refused, and together
the replacements move the lowered modules to the end and leave the rest as it was. -/
namespace Multiport

namespace Design

/-- The design with modules in the places of those of the same names, at the end. -/
def withConcrete (design : Design) (modules : List Module) : Design :=
  { design with
    modules := design.modules.insertAll (modules.map fun module => (module.name, .concrete module)) }

theorem replaceModule_of_name {design : Design} (module : Definition)
    (present : design.modules.contains module.name = true) :
    ∃ old, design.replaceModule module.name module =
      (.ok old, { design with modules := design.modules.insert module.name module }) := by
  obtain ⟨old, found⟩ := Option.isSome_iff_exists.mp present
  have free : (design.modules.erase module.name).contains module.name = false := by
    simp [Table.contains, Table.get?_erase]
  refine ⟨old, ?_⟩
  rw [replaceModule, found]
  simp only [free, Bool.false_eq_true, ↓reduceIte, Table.insert_erase]

namespace Named

variable {design : Design}

theorem mem_blueprints_iff (named : design.Named) {blueprint : Blueprint} :
    blueprint ∈ design.blueprints ↔
      (blueprint.name, .generated blueprint) ∈ design.modules.entries := by
  simp only [blueprints, definitions, Table.values, List.mem_filterMap, List.mem_map]
  constructor
  · rintro ⟨_, ⟨⟨key, module⟩, member, rfl⟩, generated⟩
    cases module with
    | concrete _ => cases generated
    | generated found =>
      obtain rfl : found = blueprint := Option.some.inj generated
      obtain rfl : key = found.name := named _ member
      exact member
  · intro member
    exact ⟨_, ⟨_, member, rfl⟩, rfl⟩

theorem nodup_names (named : design.Named) :
    (design.blueprints.map Blueprint.name).Nodup := by
  have shorter : ∀ definitions : List Definition,
      ((definitions.filterMap Definition.generated?).map Blueprint.name).Sublist
        (definitions.map Definition.name) := by
    intro definitions
    induction definitions with
    | nil => exact .refl _
    | cons first rest ih =>
      cases first with
      | generated blueprint => exact ih.cons_cons _
      | concrete module => exact ih.cons _
  have distinct : (design.definitions.map Definition.name).Nodup :=
    named.map_name_definitions ▸ design.modules.nodup
  exact distinct.sublist (shorter design.definitions)

/-- To drop modules that are not written out by their names is to drop just these. -/
theorem filter_names (named : design.Named) (chosen : Blueprint → Bool) :
    design.modules.entries.filter
        (fun entry => entry.1 ∉ (design.blueprints.filter chosen).map Blueprint.name) =
      design.modules.entries.filter fun entry => !entry.2.generated?.any chosen := by
  apply List.filter_congr
  rintro ⟨key, module⟩ member
  rw [decide_not]
  apply congrArg not
  rw [Bool.eq_iff_iff, decide_eq_true_eq, List.mem_map]
  constructor
  · rintro ⟨blueprint, among, same⟩
    obtain ⟨inside, accepted⟩ := List.mem_filter.mp among
    have other := Table.get?_eq_some_iff.mpr (named.mem_blueprints_iff.mp inside)
    rw [same, Table.get?_eq_some_iff.mpr member] at other
    obtain rfl := Option.some.inj other
    simpa [Definition.generated?] using accepted
  · intro accepted
    cases module with
    | concrete _ => simp [Definition.generated?] at accepted
    | generated blueprint =>
      obtain rfl : key = blueprint.name := named _ member
      refine ⟨blueprint, List.mem_filter.mpr ⟨named.mem_blueprints_iff.mpr member, ?_⟩, rfl⟩
      simpa [Definition.generated?] using accepted

end Named
end Design

namespace LoweringPass

variable {pass : LoweringPass} {design : Design}

/-- One replacement after another succeeds if every module stands in for one of its name. -/
theorem replaceAll_of_present {modules : List Module}
    (present : ∀ module ∈ modules, design.modules.contains module.name = true) :
    replaceAll modules design = (.ok (modules.map Module.name), design.withConcrete modules) := by
  induction modules generalizing design with
  | nil => rfl
  | cons first rest ih =>
    obtain ⟨old, replaced⟩ :=
      Design.replaceModule_of_name (.concrete first) (present first List.mem_cons_self)
    let next : Design :=
      { design with modules := design.modules.insert first.name (.concrete first) }
    -- What comes in under a name takes no other name away.
    have still : ∀ module ∈ rest, next.modules.contains module.name = true := fun module member =>
      Table.contains_insert.mpr (.inr (present module (List.mem_cons_of_mem _ member)))
    have step : design.replaceModule first.name (.concrete first) = (.ok old, next) := replaced
    rw [replaceAll, step]
    simp only [ih still, List.map_cons]
    rfl

theorem names_of_lowered {options : Memory.LoweringOptions} {blueprints : List Blueprint}
    {lowered : List Module}
    (made : List.Forall₂ (fun blueprint module => module.LoweredFrom options blueprint)
      blueprints lowered) : lowered.map Module.name = blueprints.map Blueprint.name := by
  induction made with
  | nil => rfl
  | cons first _ ih => rw [List.map_cons, List.map_cons, first.name, ih]

theorem present_of_lowerAll (named : design.Named) {lowered : List Module}
    (done : pass.lowerAll design design.blueprints = .ok lowered) :
    ∀ module ∈ lowered, design.modules.contains module.name = true := by
  intro module member
  have listed : module.name ∈ lowered.map Module.name := List.mem_map_of_mem member
  rw [names_of_lowered (lowerAll_eq_ok_iff.mp done).2] at listed
  obtain ⟨blueprint, among, same⟩ := List.mem_map.mp listed
  rw [← same]
  exact Table.contains_of_mem (named.mem_blueprints_iff.mp (List.mem_filter.mp among).1)

/-- A pass that lowers everything it chooses then puts it all in place. -/
theorem run_of_lowerAll (named : design.Named) {lowered : List Module}
    (done : pass.lowerAll design design.blueprints = .ok lowered) :
    pass.run design = (.ok (lowered.map Module.name), design.withConcrete lowered) := by
  rw [run, done]
  exact replaceAll_of_present (present_of_lowerAll named done)

theorem run_of_lowerAll_error {error : DesignError}
    (failed : pass.lowerAll design design.blueprints = .error error) :
    pass.run design = (.error error, design) := by
  rw [run, failed]

/-- What a pass answers and leaves when it succeeds: the modules that it does not choose, as they
were and in their order, and after them the lowered forms of those that it does, in the order of
the design. -/
structure Lowers (pass : LoweringPass) (before : Design) (names : List String)
    (after : Design) : Prop where
  names : names = (before.blueprints.filter (pass.chooses before)).map Blueprint.name
  schemas : after.schemas = before.schemas
  modules : ∃ lowered,
    List.Forall₂ (fun blueprint module => module.LoweredFrom pass.options blueprint)
        (before.blueprints.filter (pass.chooses before)) lowered ∧
      after.modules.entries =
        before.modules.entries.filter (fun entry => !entry.2.generated?.any (pass.chooses before)) ++
          lowered.map fun module => (module.name, .concrete module)

theorem lowers_withConcrete (named : design.Named) {lowered : List Module}
    (done : pass.lowerAll design design.blueprints = .ok lowered) :
    pass.Lowers design (lowered.map Module.name) (design.withConcrete lowered) := by
  obtain ⟨-, made⟩ := lowerAll_eq_ok_iff.mp done
  have names := names_of_lowered made
  have keys : (lowered.map fun module => (module.name, Definition.concrete module)).map Prod.fst =
      (design.blueprints.filter (pass.chooses design)).map Blueprint.name := by
    rw [List.map_map, ← names]
    rfl
  have distinct : ((design.blueprints.filter (pass.chooses design)).map Blueprint.name).Nodup :=
    named.nodup_names.sublist (List.filter_sublist.map Blueprint.name)
  rw [← keys] at distinct
  refine ⟨names, rfl, lowered, made, ?_⟩
  rw [← named.filter_names, ← keys]
  exact Table.entries_insertAll _ distinct

/-- A pass that succeeds lowers exactly what it chooses. -/
theorem run_lowers_chosen (reachable : design.Reachable) {names : List String} {after : Design}
    (done : pass.run design = (.ok names, after)) : pass.Lowers design names after := by
  have named := reachable.named
  cases lowering : pass.lowerAll design design.blueprints with
  | error error =>
    rw [run_of_lowerAll_error lowering] at done
    cases done
  | ok lowered =>
    rw [run_of_lowerAll named lowering] at done
    cases done
    exact lowers_withConcrete named lowering

def sampleSchemas : Design :=
  ((Design.empty.addSchema (.memory "mem")).2.addSchema ⟨"pll", "Clocking", []⟩).2

theorem reachable_sampleSchemas : sampleSchemas.Reachable := .addSchema _ (.addSchema _ .empty)

/-- A memory with one port of each kind, as a module that is not written out. -/
def sampleMemory : Blueprint :=
  (((Memory.Descriptor.ofSize 8 4).withPorts 1 1 1).withLatency 1 1).toBlueprint "ram" "mem"

/-- A memory, and after it a module of the other generator. -/
def mixedDesign : Design :=
  ((sampleSchemas.addModule (.generated sampleMemory)).2.addModule
    (.generated ⟨"clocks", [], "pll", .empty⟩)).2

theorem run_lowers_chosen_mixed :
    mixedDesign.Reachable ∧ ∃ after, standard.run mixedDesign = (.ok ["ram"], after) ∧
      standard.Lowers mixedDesign ["ram"] after := by
  have reachable : mixedDesign.Reachable :=
    .addModule _ (.addModule _ reachable_sampleSchemas)
  have answered : (standard.run mixedDesign).1 = .ok ["ram"] := by decide +kernel
  have done : standard.run mixedDesign = (.ok ["ram"], (standard.run mixedDesign).2) :=
    Prod.ext answered rfl
  exact ⟨reachable, _, done, run_lowers_chosen reachable done⟩

/-- A pass fails exactly for the first module that it cannot process, and then the design is as it
was. Once everything that it chooses is lowered, each replacement succeeds on the design that those
before it leave. -/
theorem run_all_or_nothing (reachable : design.Reachable) (pass : LoweringPass) :
    (∀ error, (pass.run design).1 = .error error ↔
      pass.FirstFault design design.blueprints error) ∧
    (∀ error, (pass.run design).1 = .error error → (pass.run design).2 = design) ∧
    ∀ lowered, pass.lowerAll design design.blueprints = .ok lowered →
      ∀ done module rest, lowered = done ++ module :: rest →
        ∃ middle old, replaceAll done design = (.ok (done.map Module.name), middle) ∧
          (middle.replaceModule module.name (.concrete module)).1 = .ok old := by
  have named := reachable.named
  refine ⟨fun error => ?_, fun error failed => ?_, ?_⟩
  · rw [← lowerAll_eq_error_iff]
    cases lowering : pass.lowerAll design design.blueprints with
    | error cause => simp [run_of_lowerAll_error lowering]
    | ok lowered => simp [run_of_lowerAll named lowering]
  · cases lowering : pass.lowerAll design design.blueprints with
    | error cause => rw [run_of_lowerAll_error lowering]
    | ok lowered => simp [run_of_lowerAll named lowering] at failed
  · intro lowered lowering done module rest split
    have present := present_of_lowerAll named lowering
    rw [split] at present
    have before : ∀ earlier ∈ done, design.modules.contains earlier.name = true :=
      fun earlier member => present earlier (List.mem_append_left _ member)
    have here : (design.withConcrete done).modules.contains module.name = true :=
      Table.contains_insertAll _ _ (present module (List.mem_append_right _ List.mem_cons_self))
    obtain ⟨old, replaced⟩ := Design.replaceModule_of_name (.concrete module) here
    exact ⟨_, old, replaceAll_of_present before, congrArg Prod.fst replaced⟩

/-- A memory, and after it a module of a generator that is not known. -/
def orphanDesign : Design :=
  ((sampleSchemas.addModule (.generated sampleMemory)).2.addModule
    (.generated ⟨"orphan", [], "lost", .empty⟩)).2

theorem run_all_or_nothing_orphan :
    orphanDesign.Reachable ∧
      standard.FirstFault orphanDesign orphanDesign.blueprints (.unknownGenerator "orphan" "lost") ∧
      (standard.run orphanDesign).2 = orphanDesign := by
  have reachable : orphanDesign.Reachable :=
    .addModule _ (.addModule _ reachable_sampleSchemas)
  have failed : (standard.run orphanDesign).1 = .error (.unknownGenerator "orphan" "lost") := by
    decide +kernel
  obtain ⟨first, unchanged, -⟩ := run_all_or_nothing reachable standard
  exact ⟨reachable, (first _).mp failed, unchanged _ failed⟩

end LoweringPass
end Multiport
