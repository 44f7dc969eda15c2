import Multiport.Proofs.Design.Reachable

/-! What an operation on a design leaves when it fails. An operation that adds or takes out leaves
the design as it was. To put a module in place of another takes the other out first, so a clash of
names is found too late: the other is put back, but at the end. -/
namespace Multiport

private theorem filter_append_eq_self_iff {names : List String} (distinct : names.Nodup)
    (name : String) :
    names.filter (· ≠ name) ++ [name] = names ↔ names.getLast? = some name := by
  constructor
  · intro same
    rw [← same, List.getLast?_concat]
  · intro last
    obtain ⟨front, rfl⟩ := List.getLast?_eq_some_iff.mp last
    have apart : ∀ other ∈ front, other ≠ name := fun other member =>
      (List.nodup_append.mp distinct).2.2 other member name List.mem_cons_self
    have kept : front.filter (· ≠ name) = front :=
      List.filter_eq_self.mpr fun other member => by simpa using apart other member
    rw [List.filter_append, kept]
    simp

namespace Design

variable {design : Design}

/-- A design that differs from another one in nothing but the place of one module, which has gone
to the end. -/
structure MovesToEnd (name : String) (before after : Design) : Prop where
  schemas : after.schemas = before.schemas
  modules : ∀ other, after.module? other = before.module? other
  order : after.modules.keys = before.modules.keys.filter (· ≠ name) ++ [name]

/-- The module that goes to the end was there before exactly if nothing changes. -/
theorem MovesToEnd.eq_iff {name : String} {before after : Design}
    (moves : MovesToEnd name before after) :
    after = before ↔ before.modules.keys.getLast? = some name := by
  have distinct : before.modules.keys.Nodup := before.modules.nodup
  rw [← filter_append_eq_self_iff distinct, ← moves.order]
  constructor
  · intro same
    rw [same]
  · intro keys
    have modules : after.modules = before.modules := Table.ext_get? keys moves.modules
    cases after
    cases before
    exact congr (congrArg Design.mk moves.schemas) modules

theorem movesToEnd_insert {name : String} {module : Definition}
    (found : design.modules.get? name = some module) :
    MovesToEnd name design { design with modules := design.modules.insert name module } where
  schemas := rfl
  modules other := by
    simp only [module?, Table.get?_insert]
    split
    · rename_i same
      rw [same, found]
    · rfl
  order := Table.keys_insert _ _ _

theorem addSchema_of_error {schema : Schema} {error : DesignError}
    (failed : (design.addSchema schema).1 = .error error) :
    (design.addSchema schema).2 = design := by
  unfold addSchema at failed ⊢
  split
  · rfl
  · rename_i free
    simp [free] at failed

theorem addModule_of_error {module : Definition} {error : DesignError}
    (failed : (design.addModule module).1 = .error error) :
    (design.addModule module).2 = design := by
  unfold addModule at failed ⊢
  split
  · rfl
  · rename_i free
    simp [free] at failed

theorem removeModule_of_error {name : String} {error : DesignError}
    (failed : (design.removeModule name).1 = .error error) :
    (design.removeModule name).2 = design := by
  unfold removeModule at failed ⊢
  split
  · rfl
  · rename_i found
    simp [found] at failed

/-- A replacement fails for a module that is not there, and then nothing changes, or for a name that
another module has, and then the module that was to be replaced goes to the end. -/
theorem replaceModule_of_error (named : design.Named) {name : String} {module : Definition}
    {error : DesignError} (failed : (design.replaceModule name module).1 = .error error) :
    (error = .unknownModule name ∧ (design.replaceModule name module).2 = design) ∨
      (error = .duplicateModule module.name ∧
        MovesToEnd name design (design.replaceModule name module).2) := by
  rcases replaceModule_cases named name module with
    ⟨-, missing⟩ | ⟨old, found, ⟨other, -, -, clash⟩ | ⟨-, replaced⟩⟩
  · rw [missing] at failed ⊢
    exact .inl ⟨(Except.error.inj failed).symm, rfl⟩
  · rw [clash] at failed ⊢
    exact .inr ⟨(Except.error.inj failed).symm, movesToEnd_insert found⟩
  · rw [replaced] at failed
    cases failed

/-- An operation that fails leaves the schemas and the module of every name. It leaves the order of
the modules too, but for a replacement that clashes with a module of another name: that one leaves
the order only if the module to be replaced is the last. -/
theorem failed_operations (reachable : design.Reachable) :
    (∀ schema error, (design.addSchema schema).1 = .error error →
      (design.addSchema schema).2 = design) ∧
    (∀ module error, (design.addModule module).1 = .error error →
      (design.addModule module).2 = design) ∧
    (∀ name error, (design.removeModule name).1 = .error error →
      (design.removeModule name).2 = design) ∧
    ∀ name module error, (design.replaceModule name module).1 = .error error →
      (error = .unknownModule name ∧ (design.replaceModule name module).2 = design) ∨
        (error = .duplicateModule module.name ∧
          MovesToEnd name design (design.replaceModule name module).2 ∧
          ((design.replaceModule name module).2 = design ↔
            design.modules.keys.getLast? = some name)) := by
  refine ⟨fun _ _ => addSchema_of_error, fun _ _ => addModule_of_error,
    fun _ _ => removeModule_of_error, fun name module error failed => ?_⟩
  rcases replaceModule_of_error reachable.named failed with missing | ⟨clash, moves⟩
  · exact .inl missing
  · exact .inr ⟨clash, moves, moves.eq_iff⟩

def twoEmpty : Design :=
  ((Design.empty.addModule (.concrete ⟨"a", [], []⟩)).2.addModule (.concrete ⟨"b", [], []⟩)).2

theorem failed_operations_twoEmpty :
    twoEmpty.Reachable ∧
      (twoEmpty.replaceModule "a" (.concrete ⟨"b", [], []⟩)).1 = .error (.duplicateModule "b") ∧
      MovesToEnd "a" twoEmpty (twoEmpty.replaceModule "a" (.concrete ⟨"b", [], []⟩)).2 := by
  have reachable : twoEmpty.Reachable := .addModule _ (.addModule _ .empty)
  have failed : (twoEmpty.replaceModule "a" (.concrete ⟨"b", [], []⟩)).1 =
      .error (.duplicateModule "b") := by rfl
  obtain ⟨-, -, -, replace⟩ := failed_operations reachable
  rcases replace _ _ _ failed with ⟨unknown, -⟩ | ⟨-, moves, -⟩
  · cases unknown
  · exact ⟨reachable, failed, moves⟩

/-- A replacement that fails can change the order of the modules. -/
theorem replaceModule_clash_reorders :
    twoEmpty.Reachable ∧
      (twoEmpty.replaceModule "a" (.concrete ⟨"b", [], []⟩)).1 = .error (.duplicateModule "b") ∧
      twoEmpty.modules.keys = ["a", "b"] ∧
      (twoEmpty.replaceModule "a" (.concrete ⟨"b", [], []⟩)).2.modules.keys = ["b", "a"] ∧
      (twoEmpty.replaceModule "a" (.concrete ⟨"b", [], []⟩)).2 ≠ twoEmpty := by
  have before : twoEmpty.modules.keys = ["a", "b"] := by decide +kernel
  have after : (twoEmpty.replaceModule "a" (.concrete ⟨"b", [], []⟩)).2.modules.keys =
      ["b", "a"] := by decide +kernel
  refine ⟨.addModule _ (.addModule _ .empty), by rfl, before, after, fun same => ?_⟩
  rw [same, before] at after
  simp at after

end Design
end Multiport
