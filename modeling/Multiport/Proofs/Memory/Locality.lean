import Mathlib.Data.List.Flatten
import Multiport.Proofs.Memory.Edges
import Multiport.Proofs.Simulation.Serial

namespace Multiport

theorem Simulator.reading_input {sim : Simulator} {name : String} {bits : Bits}
    (found : sim.inputs.get? name = some bits) (width : Nat) :
    sim.reading (.ident name width) = bits := by
  have held : sim.held? name = some bits := by simp [held?, found]
  exact reading_of_eval ((Evaluates.held held).eval (by decide))

namespace Memory

namespace Lane

/-- The signal behind a number of registers of a lane; behind none, what goes into it. -/
def tap (lane : Lane) : Nat → Signal
  | 0 => lane.source
  | stage + 1 => .ident (lane.registers.getD stage "") lane.source.width

theorem width_tap (lane : Lane) (stage : Nat) : (lane.tap stage).width = lane.source.width := by
  cases stage <;> rfl

theorem output_eq_tap (lane : Lane) : lane.output = lane.tap lane.registers.length := by
  obtain ⟨source, registers⟩ := lane
  cases registers using List.reverseRecOn with
  | nil => rfl
  | append_singleton registers last => simp [output, tap, Signal.ident]

theorem captures_eq (lane : Lane) :
    lane.captures = (List.range lane.registers.length).map fun stage =>
      (lane.registers.getD stage "", (lane.tap stage).expr) := by
  obtain ⟨⟨source, width⟩, registers⟩ := lane
  rw [captures]
  induction registers generalizing source with
  | nil => rfl
  | cons register rest ih =>
    rw [capturesFrom, ih, List.length_cons, List.range_succ_eq_map, List.map_cons, List.map_map]
    congr 1
    apply List.map_congr_left
    intro stage _
    cases stage <;> rfl

theorem mem_captures (lane : Lane) {stage : Nat} (inside : stage < lane.registers.length) :
    (lane.registers.getD stage "", (lane.tap stage).expr) ∈ lane.captures := by
  rw [captures_eq]
  exact List.mem_map.mpr ⟨stage, List.mem_range.mpr inside, rfl⟩

end Lane

/-- Two states agree on everything along the lanes of a circuit. -/
def Circuit.Agrees (circuit : Circuit) (first second : Simulator) : Prop :=
  ∀ lane ∈ circuit.lanes, ∀ stage ≤ lane.registers.length,
    first.reading (lane.tap stage) = second.reading (lane.tap stage)

theorem Circuit.Agrees.trans {circuit : Circuit} {first middle last : Simulator}
    (earlier : circuit.Agrees first middle) (later : circuit.Agrees middle last) :
    circuit.Agrees first last := fun lane inCircuit stage inside =>
  (earlier lane inCircuit stage inside).trans (later lane inCircuit stage inside)

theorem Circuit.Agrees.output {circuit : Circuit} {first second : Simulator}
    (agrees : circuit.Agrees first second) {lane : Lane} (inCircuit : lane ∈ circuit.lanes) :
    first.reading lane.output = second.reading lane.output := by
  rw [lane.output_eq_tap]
  exact agrees lane inCircuit _ (Nat.le_refl _)

/-- The input signals of each port. -/
def Interface.tuples (interface : Interface) : List (List Signal) :=
  interface.read.map ReadPort.signals ++ interface.readWrite.map ReadWritePort.signals ++
    interface.write.map WritePort.signals

def Interface.clocks (interface : Interface) : List Signal :=
  interface.read.map ReadPort.clock ++ interface.readWrite.map ReadWritePort.clock ++
    interface.write.map WritePort.clock

/-- The clocks of the ports that write, in the order in which these write. -/
def Interface.storingClocks (interface : Interface) : List Signal :=
  interface.readWrite.map ReadWritePort.clock ++ interface.write.map WritePort.clock

namespace Layout

theorem tuples_eq (layout : Layout) :
    layout.interface.tuples =
      layout.circuits.map fun circuit => circuit.clock :: circuit.lanes.map Lane.source := by
  simp only [Interface.tuples, interface, circuits, List.map_append, List.map_map]
  rfl

theorem clocks_eq (layout : Layout) :
    layout.interface.clocks = layout.circuits.map Circuit.clock := by
  simp only [Interface.clocks, interface, circuits, List.map_append, List.map_map]
  rfl

namespace Describes

variable {layout : Layout} {module : Module} {descriptor : Descriptor} {sim : Simulator}

theorem nodup_signals (describes : layout.Describes module descriptor) :
    layout.interface.signals.Nodup := by
  have names : (module.inputs.map Port.name).Nodup :=
    (List.nodup_append.mp describes.distinct).1.sublist (List.filter_sublist.map Port.name)
  rw [describes.realizes.groups.signals, describes.inputs]
  refine List.Nodup.map_on (fun first firstGiven second secondGiven same => ?_)
    (List.Nodup.of_map Port.name names)
  simp only [Signal.ident, Signal.mk.injEq, Expr.ident.injEq] at same
  exact List.inj_on_of_nodup_map names firstGiven secondGiven same.1

theorem nodup_clocks (describes : layout.Describes module descriptor) :
    (layout.circuits.map Circuit.clock).Nodup := by
  have flat : layout.interface.signals = layout.circuits.flatMap fun circuit =>
      circuit.clock :: circuit.lanes.map Lane.source := by
    rw [List.flatMap_def, ← layout.tuples_eq]
    simp [Interface.signals, Interface.tuples, List.flatMap]
  have distinct := describes.nodup_signals
  rw [flat] at distinct
  rw [List.map_eq_flatMap]
  exact distinct.sublist (List.Sublist.flatMap_right _ fun circuit _ => by simp)

theorem circuit_eq_of_clock (describes : layout.Describes module descriptor)
    {first second : Circuit} (firstMember : first ∈ layout.circuits)
    (secondMember : second ∈ layout.circuits) {name : String}
    (firstNamed : first.clock.expr = .ident name) (secondNamed : second.clock.expr = .ident name) :
    first = second := by
  refine List.inj_on_of_nodup_map describes.nodup_clocks firstMember secondMember ?_
  obtain ⟨port, given, same⟩ := describes.mem_inputs_of_signals (signals_of_circuit firstMember).1
  obtain ⟨other, otherGiven, otherSame⟩ :=
    describes.mem_inputs_of_signals (signals_of_circuit secondMember).1
  rw [same, Signal.ident, Expr.ident.injEq] at firstNamed
  rw [otherSame, Signal.ident, Expr.ident.injEq] at secondNamed
  rw [same, otherSame, Module.port_eq_of_name_eq describes.distinct (Module.inputs_subset given)
    (Module.inputs_subset otherGiven) (firstNamed.trans secondNamed.symm)]

theorem circuit_of_mem_clocked (describes : layout.Describes module descriptor)
    (state : sim.Simulates module) {block : ClockedBlock} (member : block ∈ sim.clocked) :
    ∃ circuit ∈ layout.circuits, circuit.clock.expr = .ident block.clock ∧
      block ∈ circuit.items.flatMap Item.clockedBlocks := by
  rw [describes.clocked state] at member
  obtain ⟨circuit, inLayout, inCircuit⟩ := List.mem_flatMap.mp member
  refine ⟨circuit, inLayout, ?_, inCircuit⟩
  obtain ⟨port, -, named⟩ := describes.clock inLayout
  rw [circuit.clockedBlocks_items named] at inCircuit
  suffices same : block.clock = port.name by rw [same, named]
  rcases List.mem_append.mp inCircuit with inLanes | inLogic
  · obtain ⟨lane, -, inLane⟩ := List.mem_flatMap.mp inLanes
    obtain ⟨capture, -, rfl⟩ := List.mem_map.mp inLane
    rfl
  · rcases cases_of_mem_circuits inLayout with
      ⟨plan, -, rfl⟩ | ⟨plan, -, rfl⟩ | ⟨plan, -, rfl⟩
    · simp [ReadPlan.circuit] at inLogic
    · rw [ReadWritePlan.clockedBlocks_logic named, List.mem_singleton] at inLogic
      rw [inLogic]
    · rw [WritePlan.clockedBlocks_logic named, List.mem_singleton] at inLogic
      rw [inLogic]

private theorem demands_capture (describes : layout.Describes module descriptor)
    (state : sim.Simulates module) {circuit : Circuit} (member : circuit ∈ layout.circuits)
    {lane : Lane} (inCircuit : lane ∈ circuit.lanes) {stage : Nat}
    (inside : stage < lane.registers.length) {name : String} :
    ClockedBlock.demands ⟨name, Lane.captureBody
        (lane.registers.getD stage "", (lane.tap stage).expr)⟩ sim.environment =
      [.register (lane.registers.getD stage "") (sim.reading (lane.tap stage))] := by
  have holds := describes.holds_capture state member inCircuit (lane.mem_captures inside)
  rw [← lane.width_tap stage] at holds
  exact ClockedBlock.demands_of_ok
    (Lane.updatesAll_captureBody_eq_ok_iff.mpr ⟨_, holds.eval, rfl⟩)

private theorem block_demands_congr (describes : layout.Describes module descriptor)
    {first second : Simulator} (firstState : first.Simulates module)
    (secondState : second.Simulates module) {circuit : Circuit} (member : circuit ∈ layout.circuits)
    (agrees : circuit.Agrees first second) {block : ClockedBlock}
    (inCircuit : block ∈ circuit.items.flatMap Item.clockedBlocks) :
    block.demands first.environment = block.demands second.environment := by
  obtain ⟨port, -, named⟩ := describes.clock member
  have output : ∀ lane ∈ circuit.lanes, first.reading lane.output = second.reading lane.output :=
    fun _ inLanes => agrees.output inLanes
  rw [circuit.clockedBlocks_items named] at inCircuit
  rcases List.mem_append.mp inCircuit with inLanes | inLogic
  · obtain ⟨lane, laneMember, inLane⟩ := List.mem_flatMap.mp inLanes
    rw [Lane.blocks, lane.captures_eq, List.map_map] at inLane
    obtain ⟨stage, inRange, rfl⟩ := List.mem_map.mp inLane
    have inside := List.mem_range.mp inRange
    rw [Function.comp_apply, describes.demands_capture firstState member laneMember inside,
      describes.demands_capture secondState member laneMember inside,
      agrees lane laneMember stage (Nat.le_of_lt inside)]
  · rcases cases_of_mem_circuits member with
      ⟨plan, -, rfl⟩ | ⟨plan, inReadWrite, rfl⟩ | ⟨plan, inWrite, rfl⟩
    · simp [ReadPlan.circuit] at inLogic
    · rw [ReadWritePlan.clockedBlocks_logic named, List.mem_singleton] at inLogic
      have same : plan.request? first = plan.request? second := by
        simp only [ReadWritePlan.circuit, ReadWritePlan.lanes, List.forall_mem_cons] at output
        obtain ⟨enable, address, mode, mask, data, -⟩ := output
        simp only [ReadWritePlan.request?, enable, address, mode, mask, data]
      rw [inLogic, ClockedBlock.demands_of_ok (describes.updates_readWrite firstState inReadWrite),
        ClockedBlock.demands_of_ok (describes.updates_readWrite secondState inReadWrite), same]
    · rw [WritePlan.clockedBlocks_logic named, List.mem_singleton] at inLogic
      have same : plan.request? first = plan.request? second := by
        simp only [WritePlan.circuit, WritePlan.lanes, List.forall_mem_cons] at output
        obtain ⟨enable, address, mask, data, -⟩ := output
        simp only [WritePlan.request?, enable, address, mask, data]
      rw [inLogic, ClockedBlock.demands_of_ok (describes.updates_write firstState inWrite),
        ClockedBlock.demands_of_ok (describes.updates_write secondState inWrite), same]

/-- What is asked for at an edge of a port is decided along the lanes of its circuit. -/
theorem demands_congr (describes : layout.Describes module descriptor)
    {first second : Simulator} (firstState : first.Simulates module)
    (secondState : second.Simulates module) {circuit : Circuit} (member : circuit ∈ layout.circuits)
    {name : String} (named : circuit.clock.expr = .ident name)
    (agrees : circuit.Agrees first second) :
    first.demands (· == name) = second.demands (· == name) := by
  rw [Simulator.demands, Simulator.demands, Simulator.selectedBlocks, Simulator.selectedBlocks,
    firstState.clocked, ← secondState.clocked]
  apply List.flatMap_congr
  intro block selected
  obtain ⟨inClocked, rises⟩ := List.mem_filter.mp selected
  obtain ⟨other, inLayout, otherNamed, inCircuit⟩ :=
    describes.circuit_of_mem_clocked secondState inClocked
  rw [eq_of_beq rises] at otherNamed
  obtain rfl := describes.circuit_eq_of_clock member inLayout named otherNamed
  exact describes.block_demands_congr firstState secondState member agrees inCircuit

theorem reading_signal_congr (describes : layout.Describes module descriptor)
    {first second : Simulator} (state : first.Simulates module)
    (same : second.inputs = first.inputs) {signal : Signal}
    (member : signal ∈ layout.interface.signals) :
    first.reading signal = second.reading signal := by
  obtain ⟨port, given, rfl⟩ := describes.mem_inputs_of_signals member
  obtain ⟨bits, found, -⟩ := state.input describes.distinct given
  rw [Simulator.reading_input found, Simulator.reading_input (same ▸ found)]

/-- An edge of an input succeeds, and all that the blocks of this clock ask for is done. -/
theorem posedge_eq (describes : layout.Describes module descriptor) (state : sim.Simulates module)
    {name : String} (input : sim.inputs.contains name = true) :
    sim.posedge name = (.ok (), (sim.demands (· == name)).foldl Simulator.applied sim) := by
  rw [Simulator.posedge, if_pos input, describes.fire state]

/-- An edge of one port changes nothing along the lanes of another. -/
theorem agrees_posedge (describes : layout.Describes module descriptor)
    (state : sim.Simulates module) {circuit : Circuit} (member : circuit ∈ layout.circuits)
    {name rising : String} (named : circuit.clock.expr = .ident name) (apart : name ≠ rising)
    (input : sim.inputs.contains rising = true) :
    circuit.Agrees sim (sim.perform (.posedge rising)).2 := by
  intro lane inCircuit stage inside
  cases stage with
  | zero =>
    obtain ⟨registers, arrays, same, -⟩ := sim.foldl_applied_eq (sim.demands (· == rising))
    refine describes.reading_signal_congr state ?_ ((signals_of_circuit member).2 lane inCircuit)
    rw [Simulator.perform, describes.posedge_eq state input, same]
  | succ stage =>
    have captures := describes.captures state member inCircuit (lane.mem_captures inside)
    have proceeds : sim.Proceeds circuit.clock (.posedge rising) := by
      refine .inl (describes.perform_edge state rfl fun clock same => ?_)
      cases same
      exact input
    have other : (Operation.posedge rising).isEdgeOf circuit.clock = false := by
      simp [Operation.isEdgeOf_eq_selects named, Operation.selects, apart]
    exact (captures.perform proceeds).trans (if_neg (by simp [other])) |>.symm

end Describes
end Layout
end Memory
end Multiport
