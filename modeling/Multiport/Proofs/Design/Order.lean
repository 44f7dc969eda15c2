import Multiport.Proofs.Design.Failure
import Multiport.Proofs.Design.Run

/-! A design as a list of modules. In every design that commands lead to, the modules in order have
distinct names, and a module is found by its name exactly if it is among them. What comes in comes
in at the end, what goes out leaves the others in their order, and no command touches a module that
it does not name. -/
namespace Multiport

namespace Table

variable {Value : Type}

theorem erase_of_get?_eq_none {table : Table Value} {key : String}
    (absent : table.get? key = none) : table.erase key = table := by
  apply Table.ext
  refine List.filter_eq_self.mpr fun entry member => ?_
  have other : entry.1 ≠ key := by
    rintro rfl
    rw [get?_eq_some_iff.mpr member] at absent
    cases absent
  simpa using other

theorem values_insert (table : Table Value) (key : String) (value : Value) :
    (table.insert key value).values = (table.erase key).values ++ [value] := by
  simp [values, insert]

end Table

namespace Design

variable {design : Design}

/-- What can be done to a design. -/
inductive Command where
  | addSchema (schema : Schema)
  | addModule (module : Definition)
  | replaceModule (name : String) (module : Definition)
  | removeModule (name : String)
  | run (pass : LoweringPass)

/-- The design after a command, whether it succeeds or fails. -/
def after (design : Design) : Command → Design
  | .addSchema schema => (design.addSchema schema).2
  | .addModule module => (design.addModule module).2
  | .replaceModule name module => (design.replaceModule name module).2
  | .removeModule name => (design.removeModule name).2
  | .run pass => (pass.run design).2

/-- The names of the modules that a command is about. A pass is about those that it answers. -/
def touched (design : Design) : Command → List String
  | .addSchema _ => []
  | .addModule module => [module.name]
  | .replaceModule name module => [name, module.name]
  | .removeModule name => [name]
  | .run pass =>
      match (pass.run design).1 with
      | .ok names => names
      | .error _ => []

def others (design : Design) (names : List String) : List Definition :=
  design.definitions.filter fun module => module.name ∉ names

/-- The modules of other names than some, of which one went out before. -/
theorem filter_others {name : String} {names : List String} (among : name ∈ names) :
    (design.others [name]).filter (fun module => module.name ∉ names) = design.others names := by
  rw [others, others, List.filter_filter]
  refine List.filter_congr fun module _ => ?_
  by_cases inNames : module.name ∈ names
  · simp [inNames]
  · have other : module.name ≠ name := fun same => inNames (same ▸ among)
    simp [inNames, other]

namespace Named

theorem module?_eq_some_iff (named : design.Named) {name : String} {module : Definition} :
    design.module? name = some module ↔ module ∈ design.definitions ∧ module.name = name := by
  rw [module?, Table.get?_eq_some_iff]
  constructor
  · intro member
    exact ⟨List.mem_map.mpr ⟨_, member, rfl⟩, (named _ member).symm⟩
  · rintro ⟨among, rfl⟩
    obtain ⟨⟨key, value⟩, member, rfl⟩ := List.mem_map.mp among
    rwa [← named _ member]

/-- To leave out modules by the names they stand under is to leave them out by their own. -/
theorem others_eq (named : design.Named) (names : List String) :
    design.others names =
      (design.modules.entries.filter fun entry => entry.1 ∉ names).map Prod.snd := by
  rw [others, definitions, Table.values, List.filter_map]
  exact congrArg _ (List.filter_congr fun entry member => by simp [named entry member])

theorem values_erase (named : design.Named) (name : String) :
    (design.modules.erase name).values = design.others [name] := by
  rw [named.others_eq, Table.values, Table.erase]
  simp

theorem others_of_absent (named : design.Named) {name : String}
    (absent : design.module? name = none) : design.others [name] = design.definitions := by
  rw [← named.values_erase, Table.erase_of_get?_eq_none absent, definitions]

theorem values_insert (named : design.Named) (name : String) (module : Definition) :
    (design.modules.insert name module).values = design.others [name] ++ [module] := by
  rw [Table.values_insert, named.values_erase]

theorem definitions_replaced (named : design.Named) {name : String} {module : Definition}
    (free : module.name = name ∨ design.module? module.name = none) :
    ((design.modules.erase name).insert module.name module).values =
      design.others [name] ++ [module] := by
  have absent : (design.modules.erase name).get? module.name = none := by
    rw [Table.get?_erase]
    split
    · rfl
    · rename_i different
      exact free.resolve_left different
  rw [Table.values_insert, Table.erase_of_get?_eq_none absent, named.values_erase]

end Named

theorem addModule_eq_ok_iff {module : Definition} :
    (design.addModule module).1 = .ok () ↔ design.module? module.name = none := by
  unfold addModule module? Table.contains
  cases design.modules.get? module.name <;> simp

theorem definitions_addModule (named : design.Named) {module : Definition}
    (free : design.module? module.name = none) :
    (design.addModule module).2.definitions = design.definitions ++ [module] := by
  have absent : design.modules.contains module.name = false := by
    rw [Table.contains, show design.modules.get? module.name = none from free]
    rfl
  simp only [addModule, absent, Bool.false_eq_true, ↓reduceIte, definitions]
  rw [named.values_insert, named.others_of_absent free, definitions]

theorem replaceModule_eq_ok_iff (named : design.Named) {name : String} {module old : Definition} :
    (design.replaceModule name module).1 = .ok old ↔
      design.module? name = some old ∧
        (module.name = name ∨ design.module? module.name = none) := by
  rcases replaceModule_cases named name module with
    ⟨absent, failed⟩ | ⟨held, found, ⟨other, different, taken, failed⟩ | ⟨free, replaced⟩⟩
  · simp [absent, failed]
  · simp [found, different, taken, failed]
  · simp [found, free, replaced]

theorem definitions_replaceModule (named : design.Named) {name : String} {module old : Definition}
    (found : design.module? name = some old)
    (free : module.name = name ∨ design.module? module.name = none) :
    (design.replaceModule name module).2.definitions = design.others [name] ++ [module] := by
  rcases replaceModule_cases named name module with
    ⟨absent, -⟩ | ⟨held, -, ⟨other, different, taken, -⟩ | ⟨-, replaced⟩⟩
  · rw [absent] at found
    cases found
  · rw [taken] at free
    exact absurd free (by simp [different])
  · rw [replaced, definitions, named.definitions_replaced free]

theorem removeModule_eq_ok_iff {name : String} {old : Definition} :
    (design.removeModule name).1 = .ok old ↔ design.module? name = some old := by
  unfold removeModule module?
  cases design.modules.get? name <;> simp

theorem definitions_removeModule (named : design.Named) {name : String} {old : Definition}
    (found : design.module? name = some old) :
    (design.removeModule name).2.definitions = design.others [name] := by
  simp only [removeModule, show design.modules.get? name = some old from found, definitions]
  exact named.values_erase name

/-- A pass that succeeds leaves the modules that it does not answer, in their order. -/
theorem others_of_lowers (named : design.Named) {pass : LoweringPass} {names : List String}
    {next : Design} (nextNamed : next.Named) (lowers : pass.Lowers design names next) :
    next.others names = design.others names := by
  obtain ⟨lowered, made, entries⟩ := lowers.modules
  have answered : lowered.map Module.name = names :=
    (LoweringPass.names_of_lowered made).trans lowers.names.symm
  rw [← named.filter_names, ← lowers.names] at entries
  -- What is lowered has one of the names, and what is not has none of them.
  have nothing : (lowered.map fun module => (module.name, Definition.concrete module)).filter
      (fun entry => entry.1 ∉ names) = [] := by
    rw [List.filter_eq_nil_iff]
    intro entry member
    obtain ⟨module, inLowered, rfl⟩ := List.mem_map.mp member
    simpa [← answered] using ⟨module, inLowered, rfl⟩
  rw [nextNamed.others_eq, named.others_eq, entries, List.filter_append, nothing,
    List.append_nil, List.filter_filter]
  simp

/-- A command leaves the modules that it does not name, in their order. -/
theorem others_after (named : design.Named) (command : Command) :
    (design.after command).others (design.touched command) =
      design.others (design.touched command) := by
  cases command with
  | addSchema schema =>
    simp only [after, addSchema]
    split <;> rfl
  | addModule module =>
    cases added : (design.addModule module).1 with
    | error error => rw [after, addModule_of_error added]
    | ok done =>
      have grown := definitions_addModule named (addModule_eq_ok_iff.mp added)
      rw [others, after, grown]
      simp [others, touched]
  | replaceModule name module =>
    have outside : (design.others [name]).filter
        (fun other => other.name ∉ design.touched (.replaceModule name module)) =
          design.others (design.touched (.replaceModule name module)) :=
      filter_others List.mem_cons_self
    rcases replaceModule_cases named name module with
      ⟨-, failed⟩ | ⟨old, found, ⟨other, -, -, failed⟩ | ⟨free, replaced⟩⟩
    · rw [after, failed]
    · have sameName := (named.module?_eq_some_iff.mp found).2
      rw [others, after, failed, definitions, named.values_insert, List.filter_append, outside]
      simp [touched, sameName]
    · rw [others, after, replaced, definitions, named.definitions_replaced free,
        List.filter_append, outside]
      simp [touched]
  | removeModule name =>
    cases removed : (design.removeModule name).1 with
    | error error => rw [after, removeModule_of_error removed]
    | ok old =>
      have shrunk := definitions_removeModule named (removeModule_eq_ok_iff.mp removed)
      rw [others, after, shrunk]
      exact filter_others List.mem_cons_self
  | run pass =>
    cases lowering : pass.lowerAll design design.blueprints with
    | error error => rw [after, LoweringPass.run_of_lowerAll_error lowering]
    | ok lowered =>
      have nextNamed := named.run pass
      have done := LoweringPass.run_of_lowerAll named lowering
      have lowers := LoweringPass.lowers_withConcrete named lowering
      rw [done] at nextNamed
      rw [after, touched, done]
      exact others_of_lowers named nextNamed lowers

/-- In every design that commands lead to, the modules in order have distinct names and a module is
found by its name exactly if it is among them. A module is added at the end, exactly if its name is
free. One that takes the place of another, whose name it has or a free one, comes in at the end and
the other goes out. A module that is removed goes out alone. No command, whether it succeeds or
fails, changes a module that it does not name or the order of those. -/
theorem modules_by_name_in_order (reachable : design.Reachable) :
    (design.definitions.map Definition.name).Nodup ∧
    (∀ name module, design.module? name = some module ↔
      module ∈ design.definitions ∧ module.name = name) ∧
    (∀ module, ((design.addModule module).1 = .ok () ↔ design.module? module.name = none) ∧
      ((design.addModule module).1 = .ok () →
        (design.addModule module).2.definitions = design.definitions ++ [module])) ∧
    (∀ name module old, ((design.replaceModule name module).1 = .ok old ↔
        design.module? name = some old ∧
          (module.name = name ∨ design.module? module.name = none)) ∧
      ((design.replaceModule name module).1 = .ok old →
        (design.replaceModule name module).2.definitions = design.others [name] ++ [module])) ∧
    (∀ name old, ((design.removeModule name).1 = .ok old ↔ design.module? name = some old) ∧
      ((design.removeModule name).1 = .ok old →
        (design.removeModule name).2.definitions = design.others [name])) ∧
    ∀ command, (design.after command).others (design.touched command) =
      design.others (design.touched command) := by
  have named := reachable.named
  refine ⟨named.map_name_definitions ▸ design.modules.nodup, fun _ _ => named.module?_eq_some_iff,
    fun module => ⟨addModule_eq_ok_iff, fun added => ?_⟩,
    fun name module old => ⟨replaceModule_eq_ok_iff named, fun replaced => ?_⟩,
    fun name old => ⟨removeModule_eq_ok_iff, fun removed => ?_⟩, others_after named⟩
  · exact definitions_addModule named (addModule_eq_ok_iff.mp added)
  · obtain ⟨found, free⟩ := (replaceModule_eq_ok_iff named).mp replaced
    exact definitions_replaceModule named found free
  · exact definitions_removeModule named (removeModule_eq_ok_iff.mp removed)

theorem modules_by_name_in_order_twoEmpty :
    twoEmpty.Reachable ∧
      (twoEmpty.definitions.map Definition.name).Nodup ∧
      (twoEmpty.replaceModule "a" (.concrete ⟨"c", [], []⟩)).1 = .ok (.concrete ⟨"a", [], []⟩) ∧
      (twoEmpty.replaceModule "a" (.concrete ⟨"c", [], []⟩)).2.definitions =
        [.concrete ⟨"b", [], []⟩, .concrete ⟨"c", [], []⟩] ∧
      (twoEmpty.after (.removeModule "b")).others ["b"] = [.concrete ⟨"a", [], []⟩] := by
  have reachable : twoEmpty.Reachable := .addModule _ (.addModule _ .empty)
  obtain ⟨distinct, -, -, replaces, -, untouched⟩ := modules_by_name_in_order reachable
  have replaced : (twoEmpty.replaceModule "a" (.concrete ⟨"c", [], []⟩)).1 =
      .ok (.concrete ⟨"a", [], []⟩) := by rfl
  exact ⟨reachable, distinct, replaced, (replaces _ _ _).2 replaced, untouched (.removeModule "b")⟩

end Design
end Multiport
