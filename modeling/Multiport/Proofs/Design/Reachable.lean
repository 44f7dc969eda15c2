import Multiport.Design.Pass

namespace Multiport

namespace Design

/-- The designs that operations lead to. -/
inductive Reachable : Design → Prop where
  | empty : Reachable .empty
  | addSchema {design : Design} (schema : Schema) (reachable : Reachable design) :
      Reachable (design.addSchema schema).2
  | addModule {design : Design} (module : Definition) (reachable : Reachable design) :
      Reachable (design.addModule module).2
  | replaceModule {design : Design} (name : String) (module : Definition)
      (reachable : Reachable design) : Reachable (design.replaceModule name module).2
  | removeModule {design : Design} (name : String) (reachable : Reachable design) :
      Reachable (design.removeModule name).2
  | run {design : Design} (pass : LoweringPass) (reachable : Reachable design) :
      Reachable (pass.run design).2

/-- Every module stands under its own name. -/
def Named (design : Design) : Prop := ∀ entry ∈ design.modules.entries, entry.1 = entry.2.name

namespace Named

variable {design : Design}

theorem empty : Named .empty := fun _ member => absurd member List.not_mem_nil

/-- The names of the modules in order are the names that they stand under. -/
theorem map_name_definitions (named : design.Named) :
    design.definitions.map Definition.name = design.modules.keys := by
  rw [definitions, Table.values, List.map_map]
  exact List.map_congr_left fun entry member => (named entry member).symm

private theorem erase (named : design.Named) (name : String) :
    Named { design with modules := design.modules.erase name } :=
  fun entry member => named entry (Table.mem_entries_erase.mp member).1

private theorem insert (named : design.Named) (module : Definition) :
    Named { design with modules := design.modules.insert module.name module } := by
  intro entry member
  rcases Table.mem_entries_insert.mp member with ⟨before, -⟩ | rfl
  · exact named entry before
  · rfl

theorem addSchema (named : design.Named) (schema : Schema) :
    (design.addSchema schema).2.Named := by
  unfold Design.addSchema
  split <;> exact named

theorem addModule (named : design.Named) (module : Definition) :
    (design.addModule module).2.Named := by
  unfold Design.addModule
  split
  · exact named
  · exact named.insert module

theorem replaceModule (named : design.Named) (name : String) (module : Definition) :
    (design.replaceModule name module).2.Named := by
  unfold Design.replaceModule
  split
  · exact named
  · rename_i old _
    dsimp only
    split
    · exact (named.erase name).insert old
    · exact (named.erase name).insert module

theorem removeModule (named : design.Named) (name : String) :
    (design.removeModule name).2.Named := by
  unfold Design.removeModule
  split
  · exact named
  · exact named.erase name

theorem replaceAll (named : design.Named) (modules : List Module) :
    (LoweringPass.replaceAll modules design).2.Named := by
  induction modules generalizing design with
  | nil => exact named
  | cons module rest ih =>
    have replaced := named.replaceModule module.name (.concrete module)
    unfold LoweringPass.replaceAll
    split
    · rename_i failed
      rwa [failed] at replaced
    · rename_i done
      rw [done] at replaced
      have others := ih replaced
      split
      · rename_i finished
        rwa [finished] at others
      · exact others

theorem run (named : design.Named) (pass : LoweringPass) : (pass.run design).2.Named := by
  unfold LoweringPass.run
  split
  · exact named.replaceAll _
  · exact named

end Named

/-- In every design that operations lead to, each module stands under its own name. -/
theorem Reachable.named {design : Design} (reachable : design.Reachable) : design.Named := by
  induction reachable with
  | empty => exact .empty
  | addSchema schema _ ih => exact ih.addSchema schema
  | addModule module _ ih => exact ih.addModule module
  | replaceModule name module _ ih => exact ih.replaceModule name module
  | removeModule name _ ih => exact ih.removeModule name
  | run pass _ ih => exact ih.run pass

/-- How a replacement ends: the module is not there; another module has the new name, and the old
one is put back; or the new one comes in. -/
theorem replaceModule_cases {design : Design} (named : design.Named) (name : String)
    (module : Definition) :
    (design.module? name = none ∧
      design.replaceModule name module = (.error (.unknownModule name), design)) ∨
    ∃ old, design.module? name = some old ∧
      ((∃ other, module.name ≠ name ∧ design.module? module.name = some other ∧
        design.replaceModule name module = (.error (.duplicateModule module.name),
          { design with modules := design.modules.insert name old })) ∨
      ((module.name = name ∨ design.module? module.name = none) ∧
        design.replaceModule name module = (.ok old,
          { design with
            modules := (design.modules.erase name).insert module.name module }))) := by
  simp only [module?]
  unfold replaceModule
  cases found : design.modules.get? name with
  | none => exact .inl ⟨rfl, rfl⟩
  | some old =>
    obtain rfl : name = old.name := named _ (Table.get?_eq_some_iff.mp found)
    refine .inr ⟨old, rfl, ?_⟩
    simp only [Table.contains, Table.get?_erase, Table.insert_erase]
    by_cases same : module.name = old.name
    · exact .inr ⟨.inl same, by simp [same]⟩
    · cases taken : design.modules.get? module.name with
      | none => exact .inr ⟨.inr rfl, by simp⟩
      | some other => exact .inl ⟨other, same, rfl, by simp [same]⟩

end Design
end Multiport
