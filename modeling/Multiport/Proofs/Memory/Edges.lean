import Multiport.Proofs.Logic.Number
import Multiport.Proofs.Memory.Outputs

namespace Multiport.Memory

/-- The word that is asked to be overwritten and what it is to become, if that is wanted and the
address is known. Words are addressed by numbers that are words themselves. -/
def request? (wanted : Prop) [Decidable wanted] (address data : Bits) : Option (Nat × Bits) :=
  if wanted ∧ address.isKnown = true ∧ address.number < 2 ^ Bits.wordSize then
    some (address.number, data)
  else none

/-- What a write port asks for, by the values of its inputs. -/
def WritePort.request? (port : WritePort) (value : Signal → Bits) : Option (Nat × Bits) :=
  Memory.request? (value port.enable = .ofNat 1 1 ∧ value port.mask = .ofNat 1 1)
    (value port.address) (value port.data)

/-- What a read-write port asks for, by the values of its inputs. -/
def ReadWritePort.request? (port : ReadWritePort) (value : Signal → Bits) : Option (Nat × Bits) :=
  Memory.request? (value port.enable = .ofNat 1 1 ∧ value port.mask = .ofNat 1 1 ∧
    value port.mode = .ofNat 1 1) (value port.address) (value port.data)

/-- What a read-write port asks for, by what stands behind its lanes. -/
def ReadWritePlan.request? (plan : ReadWritePlan) (sim : Simulator) : Option (Nat × Bits) :=
  Memory.request? (sim.reading plan.enable.output = .ofNat 1 1 ∧
    sim.reading plan.mask.output = .ofNat 1 1 ∧ sim.reading plan.mode.output = .ofNat 1 1)
    (sim.reading plan.address.output) (sim.reading plan.data.output)

/-- What a write port asks for, by what stands behind its lanes. -/
def WritePlan.request? (plan : WritePlan) (sim : Simulator) : Option (Nat × Bits) :=
  Memory.request? (sim.reading plan.enable.output = .ofNat 1 1 ∧
    sim.reading plan.mask.output = .ofNat 1 1)
    (sim.reading plan.address.output) (sim.reading plan.data.output)

theorem request?_eq_ite (wanted : Prop) [Decidable wanted] (address data : Bits) :
    request? wanted address data =
      if wanted then address.toWord?.map fun index => (index, data) else none := by
  rw [request?, Bits.toWord?_eq_ite]
  by_cases asked : wanted
  · simp only [asked, true_and, ↓reduceIte]
    split <;> rfl
  · simp only [asked, false_and, ↓reduceIte]

theorem data_of_request? {wanted : Prop} [Decidable wanted] {address data : Bits}
    {request : Nat × Bits} (asked : request? wanted address data = some request) :
    request.2 = data := by
  unfold request? at asked
  split at asked
  · cases asked
    rfl
  · cases asked

private theorem updatesAll_store {environment : Environment} (storage : Storage)
    {condition : Expr} {address data : Signal} {decided index bits : Bits}
    (conditionIs : condition.eval environment = .ok decided)
    (addressIs : address.expr.eval environment = .ok index)
    (dataIs : data.expr.eval environment = .ok bits) :
    Statement.updatesAll environment
        [.cond condition [.nonblocking (storage.slot address) data.expr] []] =
      .ok ((request? (decided.isTrue = true) index bits).toList.map fun request =>
        .word storage.name request.1 request.2) := by
  by_cases wanted : decided.isTrue = true
  · cases known : index.toWord? <;>
      simp [Statement.updatesAll, Statement.updates, conditionIs, addressIs, dataIs, wanted, known,
        Storage.slot, Update.ofTarget, request?_eq_ite]
  · simp [Statement.updatesAll, Statement.updates, conditionIs, wanted, request?_eq_ite]

namespace Layout.Describes

variable {layout : Layout} {module : Module} {descriptor : Descriptor} {sim : Simulator}

theorem updates_write (describes : layout.Describes module descriptor)
    (state : sim.Simulates module) {plan : WritePlan} (member : plan ∈ layout.write) :
    Statement.updatesAll sim.environment (plan.store layout.storage) =
      .ok ((plan.request? sim).toList.map fun request =>
        .word layout.storage.name request.1 request.2) := by
  obtain ⟨enable, address, mask, data⟩ := describes.holds_write state member
  obtain ⟨-, enableSize, maskSize, -⟩ := describes.widths_write member
  obtain ⟨bits, bitsIs, single, one⟩ := Bits.and?_of_width_eq_one
    (enable.width.trans enableSize) (mask.width.trans maskSize)
  have condition : sim.Evaluates 1 plan.condition bits :=
    enable.evaluates.and mask.evaluates bitsIs
  have updates := updatesAll_store layout.storage (condition.eval (by decide)) address.eval
    data.eval
  simp only [Bits.isTrue_iff_of_width_eq_one single, one] at updates
  exact updates

theorem updates_readWrite (describes : layout.Describes module descriptor)
    (state : sim.Simulates module) {plan : ReadWritePlan} (member : plan ∈ layout.readWrite) :
    Statement.updatesAll sim.environment (plan.store layout.storage) =
      .ok ((plan.request? sim).toList.map fun request =>
        .word layout.storage.name request.1 request.2) := by
  obtain ⟨-, address, -, -, data⟩ := describes.holds_readWrite state member
  obtain ⟨writes, writesIs, single, one⟩ := describes.evaluates_writes state member
  have updates := updatesAll_store layout.storage (writesIs.eval (by decide)) address.eval data.eval
  simp only [Bits.isTrue_iff_of_width_eq_one single, one] at updates
  exact updates

/-- The blocks that run at edges: captures into registers and stores into the storage. -/
theorem cases_of_mem_clocked (describes : layout.Describes module descriptor)
    (state : sim.Simulates module) {block : ClockedBlock} (member : block ∈ sim.clocked) :
    (∃ circuit ∈ layout.circuits, ∃ lane ∈ circuit.lanes, ∃ capture ∈ lane.captures,
      block.body = Lane.captureBody capture) ∨
    (∃ plan ∈ layout.readWrite, block.body = plan.store layout.storage) ∨
    ∃ plan ∈ layout.write, block.body = plan.store layout.storage := by
  rw [describes.clocked state] at member
  obtain ⟨circuit, inLayout, member⟩ := List.mem_flatMap.mp member
  obtain ⟨port, -, named⟩ := describes.clock inLayout
  rw [circuit.clockedBlocks_items named] at member
  rcases List.mem_append.mp member with inLanes | inLogic
  · obtain ⟨lane, inCircuit, inLane⟩ := List.mem_flatMap.mp inLanes
    obtain ⟨capture, captured, rfl⟩ := List.mem_map.mp inLane
    exact .inl ⟨circuit, inLayout, lane, inCircuit, capture, captured, rfl⟩
  · rcases cases_of_mem_circuits inLayout with
      ⟨plan, -, rfl⟩ | ⟨plan, inReadWrite, rfl⟩ | ⟨plan, inWrite, rfl⟩
    · simp [ReadPlan.circuit] at inLogic
    · rw [ReadWritePlan.clockedBlocks_logic named, List.mem_singleton] at inLogic
      exact .inr (.inl ⟨plan, inReadWrite, by rw [inLogic]⟩)
    · rw [WritePlan.clockedBlocks_logic named, List.mem_singleton] at inLogic
      exact .inr (.inr ⟨plan, inWrite, by rw [inLogic]⟩)

theorem holds_capture (describes : layout.Describes module descriptor)
    (state : sim.Simulates module) {circuit : Circuit} (member : circuit ∈ layout.circuits)
    {lane : Lane} (inCircuit : lane ∈ circuit.lanes) {capture : String × Expr}
    (captured : capture ∈ lane.captures) : sim.Holds ⟨capture.2, lane.source.width⟩ := by
  rcases Lane.source_of_mem_capturesFrom captured with source | ⟨register, inLane, same⟩
  · rw [source]
    exact describes.holds_signal state ((signals_of_circuit member).2 lane inCircuit)
  · obtain ⟨free, bits, found, wide⟩ := describes.register state member inCircuit inLane
    rw [same, ← wide]
    exact Simulator.holds_of_held (by simp [Simulator.held?, free, found])

private theorem block_succeeds (describes : layout.Describes module descriptor)
    (state : sim.Simulates module) {block : ClockedBlock} (member : block ∈ sim.clocked) :
    ∃ demanded, Statement.updatesAll sim.environment block.body = .ok demanded ∧
      ∀ update ∈ demanded, update.HasTarget sim := by
  obtain ⟨array, stored, -⟩ := describes.storage state
  have storageThere : sim.arrays.contains layout.storage.name = true := by
    simp [Table.contains, stored]
  have stores : ∀ requests : List (Nat × Bits), ∀ update ∈ requests.map fun request =>
      Update.word layout.storage.name request.1 request.2, update.HasTarget sim := by
    intro requests update inRequests
    obtain ⟨request, -, rfl⟩ := List.mem_map.mp inRequests
    exact storageThere
  rcases describes.cases_of_mem_clocked state member with
    ⟨circuit, inLayout, lane, inCircuit, capture, captured, same⟩ | ⟨plan, inReadWrite, same⟩ |
      ⟨plan, inWrite, same⟩
  · have holds := describes.holds_capture state inLayout inCircuit captured
    have updates : Statement.updatesAll sim.environment (Lane.captureBody capture) =
        .ok [.register capture.1 (sim.reading ⟨capture.2, lane.source.width⟩)] :=
      Lane.updatesAll_captureBody_eq_ok_iff.mpr ⟨_, holds.eval, rfl⟩
    obtain ⟨bits, found, -⟩ := (describes.captures state inLayout inCircuit captured).holds
    refine ⟨_, same ▸ updates, ?_⟩
    intro update inUpdates
    rw [List.mem_singleton.mp inUpdates]
    simp [Update.HasTarget, Table.contains, found]
  · exact ⟨_, same ▸ describes.updates_readWrite state inReadWrite, stores _⟩
  · exact ⟨_, same ▸ describes.updates_write state inWrite, stores _⟩

/-- Whatever clocks rise, their blocks run and all that they ask for is done. -/
theorem fire (describes : layout.Describes module descriptor) (state : sim.Simulates module)
    (selected : String → Bool) :
    sim.fire selected = (.ok (), (sim.demands selected).foldl Simulator.applied sim) := by
  refine Simulator.fire_eq_ok_iff.mpr ⟨?_, ?_, rfl⟩
  · intro block member
    obtain ⟨demanded, success, -⟩ := describes.block_succeeds state (List.mem_filter.mp member).1
    exact ⟨demanded, success⟩
  · intro update member
    obtain ⟨block, inBlocks, asked⟩ := List.mem_flatMap.mp member
    obtain ⟨demanded, success, targets⟩ :=
      describes.block_succeeds state (List.mem_filter.mp inBlocks).1
    rw [ClockedBlock.demands_of_ok success] at asked
    exact targets update asked

theorem perform_edge (describes : layout.Describes module descriptor)
    (state : sim.Simulates module) {operation : Operation} (edge : operation.isEdge = true)
    (input : ∀ clock, operation = .posedge clock → sim.inputs.contains clock = true) :
    (sim.perform operation).1 = .ok () := by
  cases operation with
  | tick => simp [Simulator.perform, Simulator.tick, describes.fire state]
  | posedge clock =>
    simp [Simulator.perform, Simulator.posedge, input clock rfl, describes.fire state]
  | set name value | setX name | setMemory name address value => cases edge

theorem perform_rising (describes : layout.Describes module descriptor)
    (state : sim.Simulates module) {operation : Operation}
    (rising : operation = .tick ∨ ∃ port ∈ module.inputs, operation = .posedge port.name) :
    (sim.perform operation).1 = .ok () := by
  rcases rising with rfl | ⟨port, given, rfl⟩
  · exact describes.perform_edge state rfl fun clock same => by cases same
  · obtain ⟨bits, found, -⟩ := state.input describes.distinct given
    apply describes.perform_edge state rfl
    intro clock same
    cases same
    simp [Table.contains, found]

private theorem proceeds (describes : layout.Describes module descriptor)
    (state : sim.Simulates module) {circuit : Circuit} (member : circuit ∈ layout.circuits)
    (operation : Operation) : sim.Proceeds circuit.clock operation := by
  obtain ⟨port, given, named⟩ := describes.clock member
  cases operation with
  | tick => exact .inl (describes.perform_edge state rfl fun clock same => by cases same)
  | posedge rising =>
    by_cases input : sim.inputs.contains rising = true
    · refine .inl (describes.perform_edge state rfl fun clock same => ?_)
      cases same
      exact input
    · refine .inr ⟨?_, by simp [Simulator.perform, Simulator.posedge, input]⟩
      obtain ⟨bits, found, -⟩ := state.input describes.distinct given
      have other : port.name ≠ rising := by
        rintro rfl
        exact input (by simp [Table.contains, found])
      simp [Operation.isEdgeOf_eq_selects named, Operation.selects, other]
  | set name value | setX name | setMemory name address value =>
    exact .inr ⟨rfl, Simulator.registers_perform rfl⟩

private theorem steady (describes : layout.Describes module descriptor) {circuit : Circuit}
    (member : circuit ∈ layout.circuits) :
    (Simulator.elaborated module).Steady circuit.clock fun _ => True where
  beginning _ _ _ := trivial
  proceeds operations operation _ :=
    describes.proceeds ((Simulator.simulates_elaborated module).run operations) member operation

theorem reading_elaborated (describes : layout.Describes module descriptor) {circuit : Circuit}
    (member : circuit ∈ layout.circuits) {lane : Lane} (inCircuit : lane ∈ circuit.lanes)
    {register : String} (inLane : register ∈ lane.registers) :
    (Simulator.elaborated module).reading (.ident register lane.source.width) =
      .x lane.source.width := by
  have declared := mem_declarations_of_lane member inCircuit inLane
  rw [← describes.declarations] at declared
  exact Simulator.reading_register_elaborated describes.distinct declared
    (describes.unsettled (mem_registers member inCircuit inLane))

/-- After any run, an input stands behind its lane as it was before as many edges of the port's
clock as the lane has registers. -/
theorem reading_output (describes : layout.Describes module descriptor) {circuit : Circuit}
    (member : circuit ∈ layout.circuits) {lane : Lane} (inCircuit : lane ∈ circuit.lanes)
    (operations : List Operation) :
    ((Simulator.elaborated module).run operations).reading lane.output =
      (Simulator.elaborated module).sample operations circuit.clock lane.registers.length
        lane.source := by
  have start := Simulator.simulates_elaborated module
  refine lane.reading_output (describes.steady member)
    (fun capture captured => describes.captures start member inCircuit captured)
    (fun register inLane => describes.reading_elaborated member inCircuit inLane)
    (fun earlier _ => ?_) operations trivial
  exact (describes.holds_signal (start.run earlier)
    ((signals_of_circuit member).2 lane inCircuit)).width

/-- The inputs of a read port arrive as many edges late as a read takes. -/
theorem reading_read (describes : layout.Describes module descriptor) {plan : ReadPlan}
    (member : plan ∈ layout.read) {lane : Lane} (inPlan : lane ∈ plan.lanes)
    (operations : List Operation) :
    ((Simulator.elaborated module).run operations).reading lane.output =
      (Simulator.elaborated module).sample operations plan.port.clock descriptor.readLatency
        lane.source := by
  have stages : lane.registers.length = descriptor.readLatency :=
    describes.realizes.read plan member lane inPlan
  rw [← stages]
  exact describes.reading_output (mem_circuits_of_read member) inPlan operations

/-- The inputs of a read-write port arrive one edge earlier than the slower access takes. -/
theorem reading_readWrite (describes : layout.Describes module descriptor) {plan : ReadWritePlan}
    (member : plan ∈ layout.readWrite) {lane : Lane} (inPlan : lane ∈ plan.lanes)
    (operations : List Operation) :
    ((Simulator.elaborated module).run operations).reading lane.output =
      (Simulator.elaborated module).sample operations plan.port.clock
        (max descriptor.readLatency descriptor.writeLatency - 1) lane.source := by
  rw [← descriptor.getD_readWriteStages?, ← describes.realizes.readWrite plan member lane inPlan]
  exact describes.reading_output (mem_circuits_of_readWrite member) inPlan operations

/-- The inputs of a write port arrive one edge earlier than a write takes. -/
theorem reading_write (describes : layout.Describes module descriptor) {plan : WritePlan}
    (member : plan ∈ layout.write) {lane : Lane} (inPlan : lane ∈ plan.lanes)
    (operations : List Operation) :
    ((Simulator.elaborated module).run operations).reading lane.output =
      (Simulator.elaborated module).sample operations plan.port.clock
        (descriptor.writeLatency - 1) lane.source := by
  rw [← descriptor.getD_writeStages?, ← describes.realizes.write plan member lane inPlan]
  exact describes.reading_output (mem_circuits_of_write member) inPlan operations

theorem eval_signal (describes : layout.Describes module descriptor) (state : sim.Simulates module)
    {signal : Signal} (member : signal ∈ layout.interface.signals) :
    signal.expr.eval sim.environment = .ok (sim.reading signal) :=
  (describes.holds_signal state member).eval

end Layout.Describes

/-- A module with the given ports is run as a memory: its simulator starts in the given state, its
inputs make up the given interface and can always be read, and its first declaration is the
storage. -/
structure Started (module : Module) (ports : List Port) (descriptor : Descriptor)
    (start : Simulator) (interface : Interface) (storage : String) : Prop where
  ports : module.ports = ports
  simulator : Simulator.ofModule module = .ok start
  groups : interface.Groups descriptor
    (module.inputs.map fun port => .ident port.name port.width)
  readable : ∀ operations, ∀ signal ∈ interface.signals,
    signal.expr.eval (start.run operations).environment =
      .ok ((start.run operations).reading signal)
  storage : module.declarations.head? =
    some (.array descriptor.dataWidth descriptor.depth storage)

theorem Layout.Describes.started {layout : Layout} {module : Module} {descriptor : Descriptor}
    (describes : layout.Describes module descriptor) {ports : List Port}
    (samePorts : module.ports = ports) :
    Started module ports descriptor (Simulator.elaborated module) layout.interface
      layout.storage.name where
  ports := samePorts
  simulator := describes.ofModule
  groups := describes.inputs ▸ describes.realizes.groups
  readable operations signal member :=
    describes.eval_signal ((Simulator.simulates_elaborated module).run operations) member
  storage := by
    rw [describes.declarations, layout.declarations_items, describes.realizes.width,
      describes.realizes.depth]
    rfl

/-- A small memory with a port of each kind, whose inputs all pass one register. -/
def threePorts : Descriptor := ((Descriptor.ofSize 4 5).withPorts 1 1 1).withLatency 1 2

theorem exists_lower_threePorts :
    ∃ module, lower .top "memory" threePorts.ports threePorts .standard = .ok module :=
  exists_ok_of_isOk (by decide +kernel)

end Multiport.Memory
