import Multiport.Proofs.Memory.Assembly
import Multiport.Proofs.Memory.Delay
import Multiport.Proofs.Netlist.Discipline
import Multiport.Proofs.Simulation.Instance

namespace Multiport.Memory

namespace Lane

def declarations (lane : Lane) : List Declaration := lane.registers.map (.reg lane.source.width)

def blocks (lane : Lane) (clock : String) : List ClockedBlock :=
  lane.captures.map fun capture => ⟨clock, captureBody capture⟩

private theorem flatMap_items (lane : Lane) (clock : Expr) {α : Type} (view : Item → List α) :
    (lane.items clock).flatMap view = lane.captures.flatMap fun capture =>
      view (.declarations [.reg lane.source.width capture.1]) ++
        view (.always (.posedge clock) (captureBody capture)) := by
  simp [items, List.flatMap_assoc]

theorem declared_items (lane : Lane) (clock : Expr) :
    (lane.items clock).flatMap Item.declared = lane.declarations := by
  have registers : lane.captures.map Prod.fst = lane.registers := captures_fst _ _
  rw [flatMap_items, declarations, ← registers]
  simp [Item.declared, ← List.map_eq_flatMap, Function.comp_def]

theorem clockedBlocks_items (lane : Lane) (clock : String) :
    (lane.items (.ident clock)).flatMap Item.clockedBlocks = lane.blocks clock := by
  rw [flatMap_items]
  simp [Item.clockedBlocks, Expr.name?, blocks, ← List.map_eq_flatMap]

theorem assigned_blocks (lane : Lane) (clock : String) :
    ((lane.blocks clock).flatMap fun block => Statement.assignedAll block.body) =
      lane.registers := by
  have registers : lane.captures.map Prod.fst = lane.registers := captures_fst _ _
  rw [← registers]
  simp [blocks, List.flatMap_map, captureBody, Statement.assignedAll, Statement.assigned,
    Expr.assigned, ← List.map_eq_flatMap]

theorem settledEntries_items (lane : Lane) (clock : Expr) :
    (lane.items clock).flatMap Item.settledEntries = [] := by
  rw [flatMap_items]
  simp [Item.settledEntries]

theorem driverEntries_items (lane : Lane) (clock : Expr) :
    (lane.items clock).flatMap Item.driverEntries = [] := by
  rw [flatMap_items]
  simp [Item.driverEntries]

theorem procedural_items (lane : Lane) (clock : Expr) :
    ((lane.items clock).flatMap fun item => item.procedural.dedup) = lane.registers := by
  have registers : lane.captures.map Prod.fst = lane.registers := captures_fst _ _
  rw [flatMap_items, ← registers]
  simp [Item.procedural, captureBody, Statement.assignedAll, Statement.assigned, Expr.assigned,
    ← List.map_eq_flatMap]

end Lane

@[simp] theorem ReadWritePlan.assignedAll_store (plan : ReadWritePlan) (storage : Storage) :
    Statement.assignedAll (plan.store storage) = [storage.name] := rfl

@[simp] theorem WritePlan.assignedAll_store (plan : WritePlan) (storage : Storage) :
    Statement.assignedAll (plan.store storage) = [storage.name] := rfl

theorem ReadWritePlan.clockedBlocks_logic {plan : ReadWritePlan} {storage : Storage}
    {clock : String} (named : (plan.circuit storage).clock.expr = .ident clock) :
    (plan.circuit storage).logic.flatMap Item.clockedBlocks = [⟨clock, plan.store storage⟩] := by
  have port : plan.port.clock.expr = .ident clock := named
  simp [circuit, logic, Item.clockedBlocks, port, Expr.name?]

theorem WritePlan.clockedBlocks_logic {plan : WritePlan} {storage : Storage} {clock : String}
    (named : (plan.circuit storage).clock.expr = .ident clock) :
    (plan.circuit storage).logic.flatMap Item.clockedBlocks = [⟨clock, plan.store storage⟩] := by
  have port : plan.port.clock.expr = .ident clock := named
  simp [circuit, Item.clockedBlocks, port, Expr.name?]

namespace Circuit

def declarations (circuit : Circuit) : List Declaration :=
  circuit.lanes.flatMap Lane.declarations ++ circuit.logic.flatMap Item.declared

theorem declared_items (circuit : Circuit) :
    circuit.items.flatMap Item.declared = circuit.declarations := by
  simp [items, declarations, List.flatMap_assoc, Lane.declared_items]

theorem clockedBlocks_items {circuit : Circuit} {clock : String}
    (named : circuit.clock.expr = .ident clock) :
    circuit.items.flatMap Item.clockedBlocks =
      circuit.lanes.flatMap (fun lane => lane.blocks clock) ++
        circuit.logic.flatMap Item.clockedBlocks := by
  simp only [items, named, List.flatMap_append, List.flatMap_assoc, Lane.clockedBlocks_items]

private theorem flatMap_items (circuit : Circuit) {α : Type} {view : Item → List α}
    (nothing : ∀ lane : Lane, (lane.items circuit.clock.expr).flatMap view = []) :
    circuit.items.flatMap view = circuit.logic.flatMap view := by
  rw [items, List.flatMap_append, List.flatMap_assoc,
    List.flatMap_eq_nil_iff.mpr fun lane _ => nothing lane, List.nil_append]

theorem settledEntries_items (circuit : Circuit) :
    circuit.items.flatMap Item.settledEntries = circuit.logic.flatMap Item.settledEntries :=
  circuit.flatMap_items fun lane => lane.settledEntries_items _

theorem driverEntries_items (circuit : Circuit) :
    circuit.items.flatMap Item.driverEntries = circuit.logic.flatMap Item.driverEntries :=
  circuit.flatMap_items fun lane => lane.driverEntries_items _

theorem procedural_items (circuit : Circuit) :
    (circuit.items.flatMap fun item => item.procedural.dedup) =
      circuit.lanes.flatMap Lane.registers ++
        circuit.logic.flatMap fun item => item.procedural.dedup := by
  simp only [items, List.flatMap_append, List.flatMap_assoc, Lane.procedural_items]

end Circuit

theorem flatMap_nothing {α β : Type} (elements : List α) :
    (elements.flatMap fun _ => ([] : List β)) = [] :=
  List.flatMap_eq_nil_iff.mpr fun _ _ => rfl

namespace Layout

variable (layout : Layout)

/-- What stands in a layout, through a view of items that finds nothing in no assignment. -/
theorem flatMap_items {α : Type} {view : Item → List α}
    (nothing : view (.assigns []) = []) :
    layout.items.flatMap view =
      view (.declarations
          [.array layout.storage.width layout.storage.depth layout.storage.name]) ++
        layout.circuits.flatMap (fun circuit => circuit.items.flatMap view) ++
        view (.assigns layout.driven) := by
  simp only [items, built, List.flatMap_append, List.flatMap_cons, List.flatMap_assoc]
  split
  · rename_i empty
    rw [List.isEmpty_iff.mp empty, nothing]
    simp
  · simp

/-- What holds of the declarations, the captures, the logic and the assignments of the outputs holds
of all items. -/
theorem forall_mem_items {good : Item → Prop}
    (storage : good (.declarations
      [.array layout.storage.width layout.storage.depth layout.storage.name]))
    (captures : ∀ circuit ∈ layout.circuits, ∀ lane ∈ circuit.lanes, ∀ capture ∈ lane.captures,
      good (.declarations [.reg lane.source.width capture.1]) ∧
        good (.always (.posedge circuit.clock.expr) (Lane.captureBody capture)))
    (readWrite : ∀ plan ∈ layout.readWrite, ∀ item ∈ plan.logic layout.storage, good item)
    (write : ∀ plan ∈ layout.write,
      good (.always (.posedge plan.port.clock.expr) (plan.store layout.storage)))
    (outputs : good (.assigns layout.driven)) : ∀ item ∈ layout.items, good item := by
  intro item member
  rcases List.mem_append.mp member with inBuilt | inDriven
  · rcases List.mem_cons.mp inBuilt with rfl | inCircuits
    · exact storage
    · obtain ⟨circuit, inLayout, inCircuit⟩ := List.mem_flatMap.mp inCircuits
      rcases List.mem_append.mp inCircuit with inLanes | inLogic
      · obtain ⟨lane, laneMember, inLane⟩ := List.mem_flatMap.mp inLanes
        obtain ⟨capture, captured, inCapture⟩ := List.mem_flatMap.mp inLane
        obtain ⟨declared, clocked⟩ := captures circuit inLayout lane laneMember capture captured
        simp only [List.mem_cons, List.not_mem_nil, or_false] at inCapture
        rcases inCapture with rfl | rfl
        · exact declared
        · exact clocked
      · rcases cases_of_mem_circuits inLayout with
          ⟨plan, -, rfl⟩ | ⟨plan, inReadWrite, rfl⟩ | ⟨plan, inWrite, rfl⟩
        · simp [ReadPlan.circuit] at inLogic
        · exact readWrite plan inReadWrite item inLogic
        · rw [List.mem_singleton.mp inLogic]
          exact write plan inWrite
  · split at inDriven
    · simp at inDriven
    · rw [List.mem_singleton.mp inDriven]
      exact outputs

theorem declarations_items :
    layout.items.flatMap Item.declared =
      .array layout.storage.width layout.storage.depth layout.storage.name ::
        layout.circuits.flatMap Circuit.declarations := by
  rw [layout.flatMap_items rfl]
  simp [Item.declared, Circuit.declared_items]

theorem clockedBlocks_items :
    layout.items.flatMap Item.clockedBlocks =
      layout.circuits.flatMap fun circuit => circuit.items.flatMap Item.clockedBlocks := by
  rw [layout.flatMap_items rfl]
  simp [Item.clockedBlocks]

theorem settledEntries_items :
    layout.items.flatMap Item.settledEntries =
      layout.readWrite.flatMap fun plan =>
        [(plan.held, plan.settle layout.storage), (plan.held, plan.settle layout.storage)] := by
  rw [layout.flatMap_items rfl]
  simp [circuits, Circuit.settledEntries_items, List.flatMap_map, ReadPlan.circuit,
    ReadWritePlan.circuit, WritePlan.circuit, ReadWritePlan.logic, Item.settledEntries,
    ReadWritePlan.settle, Statement.blockingNamesAll, Statement.blockingNames, Expr.name?,
    flatMap_nothing]

theorem driverEntries_items :
    layout.items.flatMap Item.driverEntries =
      (layout.readWrite.flatMap fun plan =>
        [(plan.writes, plan.writeCondition), (plan.reads, plan.readCondition)]) ++
      (layout.outputs.zip layout.values).map fun pair => (pair.1.name, pair.2.expr) := by
  rw [layout.flatMap_items rfl]
  simp [circuits, Circuit.driverEntries_items, List.flatMap_map, ReadPlan.circuit,
    ReadWritePlan.circuit, WritePlan.circuit, ReadWritePlan.logic, driven, Item.driverEntries,
    Expr.name?, ← List.map_eq_flatMap, flatMap_nothing]

theorem procedural_items :
    (layout.items.flatMap fun item => item.procedural.dedup) =
      layout.circuits.flatMap fun circuit => circuit.lanes.flatMap Lane.registers ++
        circuit.logic.flatMap fun item => item.procedural.dedup := by
  rw [layout.flatMap_items rfl]
  simp only [Circuit.procedural_items]
  exact List.append_nil _

end Layout
end Multiport.Memory
