import Multiport.Proofs.Memory.Edges

/-! The storage of a lowered memory over a run. At an edge each port whose clock rises acts on its
inputs of some edges ago: the words asked for are overwritten in the order of the ports, so that the
last port that asks for a word decides it, and all other words stay. -/
namespace Multiport

/-- A list of overwrites leaves each word as the last of them that names it says. -/
theorem WordArray.words_foldl_write (requests : List (Nat × Bits)) (array : WordArray)
    {address : Nat} {old : Bits} (found : array.words[address]? = some old) :
    (requests.foldl (fun array request => array.write request.1 request.2) array).words[address]? =
      some (((requests.filter fun request => request.1 = address).getLast?.map
        fun request => request.2.resize array.width).getD old) := by
  induction requests generalizing array old with
  | nil => exact found
  | cons first rest ih =>
    have bound : address < array.words.size := by
      obtain ⟨inside, -⟩ := Array.getElem?_eq_some_iff.mp found
      exact inside
    rw [List.foldl_cons]
    by_cases here : first.1 = address
    · have written : (array.write first.1 first.2).words[address]? =
          some (first.2.resize array.width) := by
        simp [write, here, bound]
      rw [ih _ written, List.filter_cons_of_pos (by simpa using here), List.getLast?_cons]
      cases (rest.filter fun request => request.1 = address).getLast? <;> rfl
    · have kept : (array.write first.1 first.2).words[address]? = some old := by
        simp [write, here, found, Array.getElem?_setIfInBounds_ne]
      rw [ih _ kept, List.filter_cons_of_neg (by simpa using here)]
      rfl

namespace Memory

/-- What the ports whose clocks rise ask for after a run, in the order in which it is done. A port
acts on its inputs as they were before some earlier edges of its own clock: one less than its
latency, which for a read-write port is the greater of the two. -/
def Interface.requests (interface : Interface) (descriptor : Descriptor) (start : Simulator)
    (operations : List Operation) (rises : Signal → Bool) : List (Nat × Bits) :=
  ((interface.readWrite.filter fun port => rises port.clock).filterMap fun port =>
    port.request? (start.sample operations port.clock
      (max descriptor.readLatency descriptor.writeLatency - 1))) ++
  (interface.write.filter fun port => rises port.clock).filterMap fun port =>
    port.request? (start.sample operations port.clock (descriptor.writeLatency - 1))

/-- What a word becomes when requests are carried out: the data of the last one that names it. -/
def overwritten (requests : List (Nat × Bits)) (address : Nat) (old : Bits) : Bits :=
  ((requests.filter fun request => request.1 = address).getLast?.map Prod.snd).getD old

/-- Every edge, a tick or an edge of an input, succeeds and overwrites the words that its ports ask
for. -/
def StorageEvolves (descriptor : Descriptor) (inputs : List Port) (start : Simulator)
    (interface : Interface) (storage : String) : Prop :=
  ∀ (operations : List Operation) (operation : Operation),
    (operation = .tick ∨ ∃ port ∈ inputs, operation = .posedge port.name) →
      ((start.run operations).perform operation).1 = .ok () ∧
        ∀ address < descriptor.depth, ∃ old,
          (start.run operations).memory storage address = .ok old ∧
          (start.run (operations ++ [operation])).memory storage address =
            .ok (overwritten (interface.requests descriptor start operations
              (operation.isEdgeOf ·)) address old)

namespace Layout.Describes

variable {layout : Layout} {module : Module} {descriptor : Descriptor} {sim : Simulator}

private theorem stores_circuit (describes : layout.Describes module descriptor) {circuit : Circuit}
    (member : circuit ∈ layout.circuits) :
    (circuit.items.flatMap Item.clockedBlocks).filter
        (fun block => layout.storage.name ∈ Statement.assignedAll block.body) =
      circuit.logic.flatMap Item.clockedBlocks := by
  obtain ⟨port, -, named⟩ := describes.clock member
  have lanes : (circuit.lanes.flatMap fun lane => lane.blocks port.name).filter
      (fun block => layout.storage.name ∈ Statement.assignedAll block.body) = [] := by
    apply List.filter_eq_nil_iff.mpr
    intro block inLanes
    obtain ⟨lane, inCircuit, inLane⟩ := List.mem_flatMap.mp inLanes
    obtain ⟨capture, captured, rfl⟩ := List.mem_map.mp inLane
    have other := describes.register_ne_storage
      (mem_registers member inCircuit (Lane.register_of_mem_captures captured))
    simp [Lane.captureBody, Statement.assignedAll, Statement.assigned, Expr.assigned, other.symm]
  have logic : ∀ block ∈ circuit.logic.flatMap Item.clockedBlocks,
      layout.storage.name ∈ Statement.assignedAll block.body := by
    rcases cases_of_mem_circuits member with
      ⟨plan, -, rfl⟩ | ⟨plan, -, rfl⟩ | ⟨plan, -, rfl⟩
    · simp [ReadPlan.circuit]
    · simp [ReadWritePlan.clockedBlocks_logic named]
    · simp [WritePlan.clockedBlocks_logic named]
  rw [circuit.clockedBlocks_items named, List.filter_append, lanes, List.nil_append]
  exact List.filter_eq_self.mpr fun block inLogic => by simpa using logic block inLogic

/-- The blocks that assign the storage are those of the logic of the ports. -/
theorem storing_blocks (describes : layout.Describes module descriptor)
    (state : sim.Simulates module) :
    sim.clocked.filter (fun block => layout.storage.name ∈ Statement.assignedAll block.body) =
      layout.circuits.flatMap fun circuit => circuit.logic.flatMap Item.clockedBlocks := by
  rw [describes.clocked state, List.filter_flatMap]
  exact List.flatMap_congr fun circuit member => describes.stores_circuit member

private theorem flatMap_selected {Plan : Type} (plans : List Plan) (chosen : Plan → Bool)
    (request : Plan → Option (Nat × Bits)) (update : Nat × Bits → Update) :
    (plans.flatMap fun plan => if chosen plan then (request plan).toList.map update else []) =
      ((plans.filter chosen).filterMap request).map update := by
  induction plans with
  | nil => rfl
  | cons first rest ih =>
    rw [List.flatMap_cons, ih]
    by_cases rises : chosen first = true
    · rw [if_pos rises, List.filter_cons_of_pos rises, List.filterMap_cons]
      cases request first <;> simp
    · rw [if_neg rises, List.filter_cons_of_neg rises, List.nil_append]

private theorem demands_single (operation : Operation) {clock : Signal} {name : String}
    (named : clock.expr = .ident name) {body : List Statement} {updates : List Update}
    (success : Statement.updatesAll sim.environment body = .ok updates) :
    (([⟨name, body⟩] : List ClockedBlock).filter fun block =>
        operation.selects block.clock).flatMap (fun block => block.demands sim.environment) =
      if operation.isEdgeOf clock then updates else [] := by
  have asked : ClockedBlock.demands ⟨name, body⟩ sim.environment = updates :=
    ClockedBlock.demands_of_ok success
  rw [Operation.isEdgeOf_eq_selects named]
  by_cases rises : operation.selects name = true <;> simp [rises, asked]

private theorem stores_demands (describes : layout.Describes module descriptor)
    (state : sim.Simulates module) (operation : Operation) (array : WordArray) :
    (sim.demands operation.selects).foldl (Update.onArray layout.storage.name) array =
      (((layout.readWrite.filter fun plan => operation.isEdgeOf plan.port.clock).filterMap
          (fun plan => plan.request? sim) ++
        (layout.write.filter fun plan => operation.isEdgeOf plan.port.clock).filterMap
          (fun plan => plan.request? sim)).foldl
        (fun array request => array.write request.1 request.2) array) := by
  have readWrites : ∀ plan ∈ layout.readWrite,
      ((((plan.circuit layout.storage).logic.flatMap Item.clockedBlocks).filter fun block =>
        operation.selects block.clock).flatMap fun block => block.demands sim.environment) =
      if operation.isEdgeOf plan.port.clock then (plan.request? sim).toList.map
        fun request => .word layout.storage.name request.1 request.2 else [] := by
    intro plan member
    obtain ⟨port, -, clock⟩ := describes.clock (mem_circuits_of_readWrite member)
    rw [ReadWritePlan.clockedBlocks_logic clock]
    exact demands_single operation clock (describes.updates_readWrite state member)
  have writes : ∀ plan ∈ layout.write,
      ((((plan.circuit layout.storage).logic.flatMap Item.clockedBlocks).filter fun block =>
        operation.selects block.clock).flatMap fun block => block.demands sim.environment) =
      if operation.isEdgeOf plan.port.clock then (plan.request? sim).toList.map
        fun request => .word layout.storage.name request.1 request.2 else [] := by
    intro plan member
    obtain ⟨port, -, clock⟩ := describes.clock (mem_circuits_of_write member)
    rw [WritePlan.clockedBlocks_logic clock]
    exact demands_single operation clock (describes.updates_write state member)
  rw [Simulator.demands, Simulator.selectedBlocks, ClockedBlock.foldl_onArray_filter,
    List.filter_comm, describes.storing_blocks state, List.filter_flatMap, List.flatMap_assoc,
    circuits, List.flatMap_append, List.flatMap_append, List.flatMap_map, List.flatMap_map,
    List.flatMap_map, List.flatMap_congr readWrites, List.flatMap_congr writes, flatMap_selected,
    flatMap_selected]
  simp [ReadPlan.circuit, flatMap_nothing, ← List.map_append, List.foldl_map, Update.onArray]

/-- After an edge the storage is what the requests that stand behind the lanes make of it. -/
theorem arrays_perform (describes : layout.Describes module descriptor)
    (state : sim.Simulates module) {operation : Operation} (edge : operation.isEdge = true)
    (success : (sim.perform operation).1 = .ok ()) {array : WordArray}
    (stored : sim.arrays.get? layout.storage.name = some array) :
    (sim.perform operation).2.arrays.get? layout.storage.name =
      some (((layout.readWrite.filter fun plan => operation.isEdgeOf plan.port.clock).filterMap
          (fun plan => plan.request? sim) ++
        (layout.write.filter fun plan => operation.isEdgeOf plan.port.clock).filterMap
          (fun plan => plan.request? sim)).foldl
        (fun array request => array.write request.1 request.2) array) := by
  obtain ⟨next, count, fired, after⟩ := Simulator.exists_fire_of_perform edge success
  rw [describes.fire state, Prod.mk.injEq] at fired
  have arrays :=
    sim.arrays_foldl_applied (sim.demands operation.selects) layout.storage.name
  rw [stored, Option.map_some, describes.stores_demands state] at arrays
  rw [after, ← fired.2]
  exact arrays

private theorem readWriteRequest_run (describes : layout.Describes module descriptor)
    {plan : ReadWritePlan} (member : plan ∈ layout.readWrite) (operations : List Operation) :
    plan.request? ((Simulator.elaborated module).run operations) =
      plan.port.request? ((Simulator.elaborated module).sample operations plan.port.clock
        (max descriptor.readLatency descriptor.writeLatency - 1)) := by
  have delayed := fun lane (inPlan : lane ∈ plan.lanes) =>
    describes.reading_readWrite member inPlan operations
  simp only [ReadWritePlan.lanes, List.forall_mem_cons] at delayed
  obtain ⟨enable, address, mode, mask, data, -⟩ := delayed
  simp only [ReadWritePlan.request?, enable, address, mode, mask, data]
  rfl

private theorem writeRequest_run (describes : layout.Describes module descriptor)
    {plan : WritePlan} (member : plan ∈ layout.write) (operations : List Operation) :
    plan.request? ((Simulator.elaborated module).run operations) =
      plan.port.request? ((Simulator.elaborated module).sample operations plan.port.clock
        (descriptor.writeLatency - 1)) := by
  have delayed := fun lane (inPlan : lane ∈ plan.lanes) =>
    describes.reading_write member inPlan operations
  simp only [WritePlan.lanes, List.forall_mem_cons] at delayed
  obtain ⟨enable, address, mask, data, -⟩ := delayed
  simp only [WritePlan.request?, enable, address, mask, data]
  rfl

private theorem requests_run (describes : layout.Describes module descriptor)
    (operations : List Operation) (rises : Signal → Bool) :
    ((layout.readWrite.filter fun plan => rises plan.port.clock).filterMap fun plan =>
        plan.request? ((Simulator.elaborated module).run operations)) ++
      ((layout.write.filter fun plan => rises plan.port.clock).filterMap fun plan =>
        plan.request? ((Simulator.elaborated module).run operations)) =
      layout.interface.requests descriptor (Simulator.elaborated module) operations rises := by
  rw [Interface.requests, Layout.interface, List.filter_map, List.filterMap_map, List.filter_map,
    List.filterMap_map]
  congr 1
  · apply List.filterMap_congr
    intro plan member
    exact describes.readWriteRequest_run (List.mem_filter.mp member).1 operations
  · apply List.filterMap_congr
    intro plan member
    exact describes.writeRequest_run (List.mem_filter.mp member).1 operations

/-- After an edge the storage is what the requests of the ports make of it. -/
theorem arrays_run_concat (describes : layout.Describes module descriptor)
    (operations : List Operation) {operation : Operation} (edge : operation.isEdge = true)
    (success : (((Simulator.elaborated module).run operations).perform operation).1 = .ok ())
    {array : WordArray}
    (stored : ((Simulator.elaborated module).run operations).arrays.get? layout.storage.name =
      some array) :
    ((Simulator.elaborated module).run (operations ++ [operation])).arrays.get?
        layout.storage.name =
      some ((layout.interface.requests descriptor (Simulator.elaborated module) operations
        (operation.isEdgeOf ·)).foldl
        (fun array request => array.write request.1 request.2) array) := by
  have after := describes.arrays_perform
    ((Simulator.simulates_elaborated module).run operations) edge success stored
  rw [describes.requests_run operations fun clock => operation.isEdgeOf clock] at after
  rw [Simulator.run_concat]
  exact after

theorem width_sample (describes : layout.Describes module descriptor) {circuit : Circuit}
    (member : circuit ∈ layout.circuits) {lane : Lane} (inCircuit : lane ∈ circuit.lanes)
    (operations : List Operation) :
    ((Simulator.elaborated module).sample operations circuit.clock lane.registers.length
      lane.source).width = lane.source.width := by
  rw [← describes.reading_output member inCircuit operations]
  exact (describes.holds_output
    ((Simulator.simulates_elaborated module).run operations) member inCircuit).width

private theorem width_of_mem_requests (describes : layout.Describes module descriptor)
    (operations : List Operation) (rises : Signal → Bool) {request : Nat × Bits}
    (member : request ∈ layout.interface.requests descriptor (Simulator.elaborated module)
      operations rises) : request.2.width = layout.storage.width := by
  rw [describes.realizes.width]
  rcases List.mem_append.mp member with inReadWrite | inWrite
  · obtain ⟨port, chosen, asked⟩ := List.mem_filterMap.mp inReadWrite
    obtain ⟨plan, planMember, rfl⟩ := List.mem_map.mp (List.mem_filter.mp chosen).1
    have inPlan : plan.data ∈ (plan.circuit layout.storage).lanes := by
      simp [ReadWritePlan.circuit, ReadWritePlan.lanes]
    have wide := describes.width_sample (mem_circuits_of_readWrite planMember) inPlan operations
    rw [describes.realizes.readWrite plan planMember plan.data inPlan,
      descriptor.getD_readWriteStages?] at wide
    rw [data_of_request? asked]
    exact wide.trans (describes.widths_readWrite planMember).2.2.2.2
  · obtain ⟨port, chosen, asked⟩ := List.mem_filterMap.mp inWrite
    obtain ⟨plan, planMember, rfl⟩ := List.mem_map.mp (List.mem_filter.mp chosen).1
    have inPlan : plan.data ∈ (plan.circuit layout.storage).lanes := by
      simp [WritePlan.circuit, WritePlan.lanes]
    have wide := describes.width_sample (mem_circuits_of_write planMember) inPlan operations
    rw [describes.realizes.write plan planMember plan.data inPlan,
      descriptor.getD_writeStages?] at wide
    rw [data_of_request? asked]
    exact wide.trans (describes.widths_write planMember).2.2.2

private theorem memory_run_concat (describes : layout.Describes module descriptor)
    (operations : List Operation) {operation : Operation} (edge : operation.isEdge = true)
    (success : (((Simulator.elaborated module).run operations).perform operation).1 = .ok ())
    {address : Nat} (inside : address < descriptor.depth) :
    ∃ old, ((Simulator.elaborated module).run operations).memory layout.storage.name address =
        .ok old ∧
      ((Simulator.elaborated module).run (operations ++ [operation])).memory layout.storage.name
          address =
        .ok (overwritten (layout.interface.requests descriptor (Simulator.elaborated module)
          operations (operation.isEdgeOf ·)) address old) := by
  obtain ⟨array, stored, wide, deep, -⟩ :=
    describes.storage ((Simulator.simulates_elaborated module).run operations)
  have bound : address < array.words.size := by
    rw [describes.realizes.depth] at deep
    exact Nat.lt_of_lt_of_eq inside deep.symm
  have found : array.words[address]? = some array.words[address] :=
    Array.getElem?_eq_getElem bound
  have after := describes.arrays_run_concat operations edge success stored
  refine ⟨array.words[address], by simp [Simulator.memory, stored, found], ?_⟩
  simp only [Simulator.memory, after, WordArray.words_foldl_write _ array found]
  congr 1
  unfold overwritten
  cases last : ((layout.interface.requests _ _ _ _).filter
      fun request => request.1 = address).getLast? with
  | none => rfl
  | some request =>
    have member := (List.mem_filter.mp (List.mem_of_getLast? last)).1
    simp [Bits.resize_of_width_eq
      ((describes.width_of_mem_requests operations _ member).trans wide.symm)]

end Layout.Describes

/-- The storage of every lowered memory evolves as its ports ask, over every run. -/
theorem storage_after_edge {scope : Scope} {name : String} {ports : List Port}
    {descriptor : Descriptor} {options : LoweringOptions} {module : Module}
    (lowered : lower scope name ports descriptor options = .ok module)
    (distinct : (ports.map Port.name).Nodup) :
    ∃ start interface storage, Started module ports descriptor start interface storage ∧
      StorageEvolves descriptor module.inputs start interface storage := by
  obtain ⟨layout, describes, samePorts⟩ := exists_describes_of_lower lowered distinct
  refine ⟨_, _, _, describes.started samePorts, ?_⟩
  intro operations operation rising
  have state := (Simulator.simulates_elaborated module).run operations
  have edge : operation.isEdge = true := by
    rcases rising with rfl | ⟨port, -, rfl⟩ <;> rfl
  have success := describes.perform_rising state rising
  refine ⟨success, fun address inside => ?_⟩
  exact describes.memory_run_concat operations edge success inside

/-- The storage and the first state of a simulator, as a memory is lowered with one port of each
kind. -/
def threePortsStart? : Option (Option Declaration × Simulator) := do
  let module ← (lower .top "memory" threePorts.ports threePorts .standard).toOption
  let start ← (Simulator.ofModule module).toOption
  return (module.declarations.head?, start)

/-- Asks for a word to be written. The inputs are captured at one edge and obeyed at the next. -/
def writing : List Operation :=
  [.set "W0_en" 1, .set "W0_mask" 1, .set "W0_addr" 2, .set "W0_data" 9, .tick]

/-- The storage of a memory with one port of each kind does, and a word is written. -/
theorem storage_after_edge_of_threePorts :
    ∃ module, lower .top "memory" threePorts.ports threePorts .standard = .ok module ∧
      (threePorts.ports.map Port.name).Nodup ∧
      ∃ start interface storage, Started module threePorts.ports threePorts start interface storage ∧
        StorageEvolves threePorts module.inputs start interface storage ∧
        (start.run writing).memory storage 2 = .ok (.x 4) ∧
        (start.run (writing ++ [.tick])).memory storage 2 = .ok (.ofNat 4 9) := by
  obtain ⟨module, lowered⟩ := exists_lower_threePorts
  have distinct : (threePorts.ports.map Port.name).Nodup := by decide
  obtain ⟨start, interface, storage, started, evolves⟩ := storage_after_edge lowered distinct
  have first : threePortsStart? = some (some (.array 4 5 storage), start) := by
    have declared : module.declarations.head? = some (.array 4 5 storage) := started.storage
    simp only [threePortsStart?, lowered, Except.toOption, Option.bind_eq_bind, Option.bind_some,
      started.simulator, declared, Option.pure_def]
  have run : (threePortsStart?.map fun (declared, start) =>
      (declared, (start.run writing).memory "Memory" 2,
        (start.run (writing ++ [.tick])).memory "Memory" 2)) =
      some (some (.array 4 5 "Memory"), .ok (.x 4), .ok (.ofNat 4 9)) := by decide +kernel
  simp only [first, Option.map_some, Option.some.injEq, Prod.mk.injEq] at run
  obtain ⟨named, before, after⟩ := run
  obtain rfl : storage = "Memory" := by simpa [Declaration.array] using named
  exact ⟨module, lowered, distinct, start, interface, _, started, evolves, before, after⟩

end Memory
end Multiport
