import Mathlib.Data.List.Nodup
import Multiport.Proofs.Simulation.Updates

namespace Multiport

namespace Update

theorem foldl_onRegister_filter (name : String) (updates : List Update) (held : Bits) :
    updates.foldl (onRegister name) held =
      (updates.filter fun update => update.name = name).foldl (onRegister name) held := by
  induction updates generalizing held with
  | nil => rfl
  | cons first rest ih =>
    by_cases names : first.name = name
    · rw [List.filter_cons_of_pos (by simpa using names), List.foldl_cons, List.foldl_cons, ih]
    · have alone : ∀ update ∈ [first], update.name ≠ name := by simpa using names
      have kept : onRegister name held first = held := foldl_onRegister_of_ne alone held
      rw [List.filter_cons_of_neg (by simpa using names), List.foldl_cons, kept, ih]

theorem foldl_onArray_filter (name : String) (updates : List Update) (array : WordArray) :
    updates.foldl (onArray name) array =
      (updates.filter fun update => update.name = name).foldl (onArray name) array := by
  induction updates generalizing array with
  | nil => rfl
  | cons first rest ih =>
    by_cases names : first.name = name
    · rw [List.filter_cons_of_pos (by simpa using names), List.foldl_cons, List.foldl_cons, ih]
    · have alone : ∀ update ∈ [first], update.name ≠ name := by simpa using names
      have kept : onArray name array first = array := foldl_onArray_of_ne alone array
      rw [List.filter_cons_of_neg (by simpa using names), List.foldl_cons, kept, ih]

end Update

namespace ClockedBlock

theorem filter_demands (name : String) (environment : Environment) (blocks : List ClockedBlock) :
    (blocks.flatMap fun block => block.demands environment).filter (fun update =>
        update.name = name) =
      ((blocks.filter fun block => name ∈ Statement.assignedAll block.body).flatMap
        fun block => block.demands environment).filter fun update => update.name = name := by
  induction blocks with
  | nil => rfl
  | cons first rest ih =>
    by_cases assigns : name ∈ Statement.assignedAll first.body
    · rw [List.filter_cons_of_pos (by simpa using assigns), List.flatMap_cons, List.flatMap_cons,
        List.filter_append, List.filter_append, ih]
    · have silent : (first.demands environment).filter (fun update => update.name = name) = [] := by
        apply List.filter_eq_nil_iff.mpr
        intro update member named
        exact assigns (of_decide_eq_true named ▸ name_mem_of_mem_demands member)
      rw [List.filter_cons_of_neg (by simpa using assigns), List.flatMap_cons, List.filter_append,
        silent, List.nil_append, ih]

/-- Blocks whose clocks come in an order are found one by one along it. -/
theorem flatMap_filter_clock {order : List String} (distinct : order.Nodup)
    {blocks : List ClockedBlock} (ordered : (blocks.map clock).Sublist order) :
    (order.flatMap fun clock => blocks.filter fun block => block.clock == clock) = blocks := by
  induction order generalizing blocks with
  | nil =>
    rw [List.sublist_nil, List.map_eq_nil_iff] at ordered
    rw [ordered, List.flatMap_nil]
  | cons clock rest ih =>
    obtain ⟨absent, others⟩ := List.nodup_cons.mp distinct
    cases blocks with
    | nil => simp
    | cons block following =>
      have later : ∀ {blocks : List ClockedBlock}, (blocks.map ClockedBlock.clock).Sublist rest →
          blocks.filter (fun block => block.clock == clock) = [] := by
        intro blocks inRest
        apply List.filter_eq_nil_iff.mpr
        intro block member same
        exact absent (eq_of_beq same ▸ inRest.subset (List.mem_map_of_mem member))
      cases ordered with
      | cons _ inRest => rw [List.flatMap_cons, later inRest, List.nil_append, ih others inRest]
      | cons_cons _ inRest =>
        have none : ∀ other ∈ rest,
            (block :: following).filter (fun block => block.clock == other) =
              following.filter fun block => block.clock == other := by
          intro other member
          refine List.filter_cons_of_neg fun same => absent ?_
          exact eq_of_beq same ▸ member
        rw [List.flatMap_cons, List.filter_cons_of_pos (by simp), later inRest,
          List.flatMap_congr none, ih others inRest]
        rfl

end ClockedBlock

namespace Simulator

/-- Edges of clocks one after another, up to the first that fails. -/
def posedges : Simulator → List String → Except SimulationError Unit × Simulator
  | sim, [] => (.ok (), sim)
  | sim, clock :: rest =>
      match sim.posedge clock with
      | (.ok (), sim) => sim.posedges rest
      | failed => failed

theorem foldl_applied_eq (sim : Simulator) (updates : List Update) :
    ∃ registers arrays,
      updates.foldl applied sim = { sim with registers := registers, arrays := arrays } ∧
        registers.keys = sim.registers.keys ∧ arrays.keys = sim.arrays.keys := by
  induction updates generalizing sim with
  | nil => exact ⟨sim.registers, sim.arrays, rfl, rfl, rfl⟩
  | cons first rest ih =>
    obtain ⟨registers, arrays, same, registerKeys, arrayKeys⟩ := ih (sim.applied first)
    refine ⟨registers, arrays, ?_, ?_, ?_⟩
    · rw [List.foldl_cons, same]
      cases first <;> rfl
    · rw [registerKeys]
      cases first <;> simp [applied]
    · rw [arrayKeys]
      cases first <;> simp [applied]

/-- Updates have one effect if each register and each array ends up the same. -/
theorem foldl_applied_ext (sim : Simulator) {first second : List Update}
    (registers : ∀ name, (first.foldl applied sim).registers.get? name =
      (second.foldl applied sim).registers.get? name)
    (arrays : ∀ name, (first.foldl applied sim).arrays.get? name =
      (second.foldl applied sim).arrays.get? name) :
    first.foldl applied sim = second.foldl applied sim := by
  obtain ⟨firstRegisters, firstArrays, firstIs, firstKeys, firstArrayKeys⟩ :=
    sim.foldl_applied_eq first
  obtain ⟨secondRegisters, secondArrays, secondIs, secondKeys, secondArrayKeys⟩ :=
    sim.foldl_applied_eq second
  rw [firstIs, secondIs] at registers arrays ⊢
  rw [Table.ext_get? (firstKeys.trans secondKeys.symm) registers,
    Table.ext_get? (firstArrayKeys.trans secondArrayKeys.symm) arrays]

theorem foldl_applied_congr (sim : Simulator) {first second : List Update}
    (same : ∀ name, first.filter (fun update => update.name = name) =
      second.filter fun update => update.name = name) :
    first.foldl applied sim = second.foldl applied sim := by
  refine foldl_applied_ext sim (fun name => ?_) fun name => ?_
  · rw [registers_foldl_applied, registers_foldl_applied]
    congr 1
    funext held
    rw [Update.foldl_onRegister_filter, same, ← Update.foldl_onRegister_filter]
  · rw [arrays_foldl_applied, arrays_foldl_applied]
    congr 1
    funext array
    rw [Update.foldl_onArray_filter, same, ← Update.foldl_onArray_filter]

/-- The updates of single edges have the effect of those of a tick, if the blocks that assign a name
run in their own order. -/
theorem foldl_demands_clocks (sim : Simulator) {order : List String} (distinct : order.Nodup)
    (ordered : ∀ name, ((sim.clocked.filter fun block =>
      name ∈ Statement.assignedAll block.body).map ClockedBlock.clock).Sublist order) :
    (order.flatMap fun clock => sim.demands (· == clock)).foldl applied sim =
      (sim.demands fun _ => true).foldl applied sim := by
  apply foldl_applied_congr
  intro name
  let assigning := sim.clocked.filter fun block => name ∈ Statement.assignedAll block.body
  have single : ∀ clock ∈ order, (sim.demands (· == clock)).filter (fun update =>
      update.name = name) = ((assigning.filter fun block => block.clock == clock).flatMap
        fun block => block.demands sim.environment).filter fun update => update.name = name := by
    intro clock _
    rw [demands, selectedBlocks, ClockedBlock.filter_demands, List.filter_comm]
  have whole : ((sim.demands fun _ => true).filter fun update => update.name = name) =
      (assigning.flatMap fun block => block.demands sim.environment).filter fun update =>
        update.name = name := by
    rw [demands, selectedBlocks, ClockedBlock.filter_demands, List.filter_comm]
    simp [assigning]
  rw [List.filter_flatMap, List.flatMap_congr single, ← List.filter_flatMap, ← List.flatMap_assoc,
    ClockedBlock.flatMap_filter_clock distinct (ordered name), whole]

end Simulator
end Multiport
