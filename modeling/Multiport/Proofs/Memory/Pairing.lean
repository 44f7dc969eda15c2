import Multiport.Proofs.Memory.Locality
import Multiport.Proofs.Memory.Signature
import Multiport.Proofs.Simulation.Redriven

namespace Multiport.Memory

open PortKind (signalName)

namespace Descriptor

/-- The registers that the inputs of a read-write port pass. -/
def accessStages (descriptor : Descriptor) : Nat :=
  max descriptor.readLatency descriptor.writeLatency - 1

/-- The memory in which each read-write port is replaced by a read port and a write port, whose
inputs pass as many registers. -/
def separated (descriptor : Descriptor) : Descriptor :=
  (descriptor.withPorts descriptor.readWritePorts descriptor.readWritePorts 0).withLatency
    descriptor.accessStages (descriptor.accessStages + 1)

end Descriptor

/-- What drives the read port and the write port of a place, by the inputs of the read-write port
there: the first is enabled for reads, the second for writes. -/
def separateInputs (index : Nat) : List (String × Expr) :=
  let input (field : String) : Expr := .ident (signalName .readWrite index field)
  [(signalName .read index "en",
      .combine .and (input "en") (.combine .equal (input "wmode") (.constant 1 0))),
    (signalName .read index "addr", input "addr"),
    (signalName .write index "en", .combine .and (input "en") (input "wmode")),
    (signalName .write index "addr", input "addr"),
    (signalName .write index "mask", input "wmask"),
    (signalName .write index "data", input "wdata")]

private theorem nodup_separateInputs (count : Nat) :
    (((List.range count).flatMap separateInputs).map Prod.fst).Nodup := by
  rw [List.map_flatMap]
  refine List.nodup_flatMap.mpr ⟨fun index _ => by simp [separateInputs], ?_⟩
  refine List.nodup_range.imp fun apart => ?_
  intro name inFirst inSecond
  simp only [separateInputs, List.map_cons, List.map_nil, List.mem_cons, List.not_mem_nil,
    or_false] at inFirst inSecond
  rcases inFirst with rfl | rfl | rfl | rfl | rfl | rfl <;> simp [apart] at inSecond

/-- The inputs of the second memory are what those of the first say they are to be. -/
def Mirrors (count : Nat) (joint split : Simulator) : Prop :=
  ∀ index < count, ∀ drive ∈ separateInputs index,
    split.get drive.1 = drive.2.eval joint.environment

/-- Behind as many registers as the lanes of a port have stands what the logic of the port sees. -/
theorem Staged.tap_eq_output {lanes : List Lane} {stages : Nat} (staged : Staged lanes stages) :
    ∀ lane ∈ lanes, lane.tap stages = lane.output := by
  intro lane member
  rw [lane.output_eq_tap, staged lane member]

namespace Layout.Describes

variable {layout : Layout} {module : Module} {descriptor : Descriptor} {sim : Simulator}

theorem reading_tap_tick (describes : layout.Describes module descriptor)
    (state : sim.Simulates module) {circuit : Circuit} (member : circuit ∈ layout.circuits)
    {lane : Lane} (inCircuit : lane ∈ circuit.lanes) {stage : Nat}
    (inside : stage < lane.registers.length) :
    sim.tick.2.reading (lane.tap (stage + 1)) = sim.reading (lane.tap stage) := by
  have captured := lane.mem_captures inside
  have proceeds : sim.Proceeds circuit.clock .tick :=
    .inl (describes.perform_edge state rfl fun clock same => by cases same)
  have step := (describes.captures state member inCircuit captured).perform proceeds
  have holds := describes.holds_capture state member inCircuit captured
  have wide : (sim.reading ⟨(lane.tap stage).expr, lane.source.width⟩).resize lane.source.width =
      sim.reading ⟨(lane.tap stage).expr, lane.source.width⟩ :=
    Bits.resize_of_width_eq holds.width
  rw [show Operation.tick.isEdgeOf circuit.clock = true from rfl, if_pos rfl, wide] at step
  have same : (⟨(lane.tap stage).expr, lane.source.width⟩ : Signal) = lane.tap stage := by
    rw [← lane.width_tap stage]
  rw [same] at step
  exact step

/-- What stands behind registers does not depend on how the inputs are driven. -/
theorem reading_tap_redriven (describes : layout.Describes module descriptor)
    (state : sim.Simulates module) {after : Simulator} (driven : sim.Redriven after)
    {circuit : Circuit} (member : circuit ∈ layout.circuits) {lane : Lane}
    (inCircuit : lane ∈ circuit.lanes) {stage : Nat} (inside : stage < lane.registers.length) :
    after.reading (lane.tap (stage + 1)) = sim.reading (lane.tap (stage + 1)) := by
  have inLane := Lane.register_of_mem_captures (lane.mem_captures inside)
  have afterState : after.Simulates module := state.trans driven.alike
  obtain ⟨free, bits, found, -⟩ := describes.register state member inCircuit inLane
  obtain ⟨afterFree, -⟩ := describes.register afterState member inCircuit inLane
  exact (Simulator.reading_register afterFree (driven.registers ▸ found) _).trans
    (Simulator.reading_register free found _).symm

theorem reading_tap_elaborated (describes : layout.Describes module descriptor)
    {circuit : Circuit} (member : circuit ∈ layout.circuits) {lane : Lane}
    (inCircuit : lane ∈ circuit.lanes) {stage : Nat} (inside : stage < lane.registers.length) :
    (Simulator.elaborated module).reading (lane.tap (stage + 1)) = .x lane.source.width :=
  describes.reading_elaborated member inCircuit
    (Lane.register_of_mem_captures (lane.mem_captures inside))

end Layout.Describes

/-- The plans of one place: of a read-write port in one layout, of a read port and of a write port
in the other one. -/
structure Place (joint split : Layout) where
  index : Nat
  plan : ReadWritePlan
  reader : ReadPlan
  writer : WritePlan
  planFound : joint.readWrite[index]? = some plan
  readerFound : split.read[index]? = some reader
  writerFound : split.write[index]? = some writer

namespace Place

variable {jointLayout splitLayout : Layout} (place : Place jointLayout splitLayout)

theorem plan_mem : place.plan ∈ jointLayout.readWrite := List.mem_of_getElem? place.planFound

theorem reader_mem : place.reader ∈ splitLayout.read := List.mem_of_getElem? place.readerFound

theorem writer_mem : place.writer ∈ splitLayout.write := List.mem_of_getElem? place.writerFound

end Place

/-- A memory with read-write ports only and the memory in which these are separated, each with the
ports that its descriptor describes. -/
structure Twins (jointLayout splitLayout : Layout) (jointModule splitModule : Module)
    (descriptor : Descriptor) : Prop where
  joint : jointLayout.Describes jointModule descriptor
  split : splitLayout.Describes splitModule descriptor.separated
  jointPorts : jointModule.ports = descriptor.ports
  splitPorts : splitModule.ports = descriptor.separated.ports
  reads : descriptor.readPorts = 0
  writes : descriptor.writePorts = 0

private theorem port_of_place {Plan Port : Type} {plans : List Plan} {port : Plan → Port}
    {make : Nat → Port} {count index : Nat} {plan : Plan}
    (same : plans.map port = (List.range count).map make) (found : plans[index]? = some plan) :
    port plan = make index := by
  have shown : (plans.map port)[index]? = some (port plan) := by
    rw [List.getElem?_map, found, Option.map_some]
  rw [same, List.getElem?_map, Option.map_eq_some_iff] at shown
  obtain ⟨given, ranged, made⟩ := shown
  obtain ⟨bound, rfl⟩ := List.getElem?_eq_some_iff.mp ranged
  rw [← made, List.getElem_range]

namespace Twins

variable {jointLayout splitLayout : Layout} {jointModule splitModule : Module}
  {descriptor : Descriptor}
  (twins : Twins jointLayout splitLayout jointModule splitModule descriptor)
  (place : Place jointLayout splitLayout)

include twins

theorem lengths :
    jointLayout.readWrite.length = descriptor.readWritePorts ∧
      splitLayout.read.length = descriptor.readWritePorts ∧
      splitLayout.write.length = descriptor.readWritePorts := by
  have joint := twins.joint.realizes.groups.readWrite
  have read := twins.split.realizes.groups.read
  have write := twins.split.realizes.groups.write
  simp only [Layout.interface, List.length_map] at joint read write
  exact ⟨joint, read, write⟩

theorem write_joint : jointLayout.write = [] := by
  have count := twins.joint.realizes.groups.write
  rw [twins.writes, Layout.interface, List.length_map] at count
  exact List.length_eq_zero_iff.mp count

theorem readWrite_split : splitLayout.readWrite = [] := by
  have count := twins.split.realizes.groups.readWrite
  rw [Layout.interface, List.length_map] at count
  exact List.length_eq_zero_iff.mp count

theorem exists_place {index : Nat} (inside : index < descriptor.readWritePorts) :
    ∃ place : Place jointLayout splitLayout, place.index = index := by
  obtain ⟨joint, read, write⟩ := twins.lengths
  exact ⟨⟨index, _, _, _, List.getElem?_eq_getElem (joint ▸ inside),
    List.getElem?_eq_getElem (read ▸ inside), List.getElem?_eq_getElem (write ▸ inside)⟩, rfl⟩

theorem index_lt : place.index < descriptor.readWritePorts := by
  rw [← twins.lengths.1]
  exact (List.getElem?_eq_some_iff.mp place.planFound).1

theorem port_plan : place.plan.port = descriptor.readWritePort place.index :=
  port_of_place (congrArg Interface.readWrite (twins.joint.interface_eq twins.jointPorts))
    place.planFound

theorem port_reader : place.reader.port = descriptor.separated.readPort place.index :=
  port_of_place (congrArg Interface.read (twins.split.interface_eq twins.splitPorts))
    place.readerFound

theorem port_writer : place.writer.port = descriptor.separated.writePort place.index :=
  port_of_place (congrArg Interface.write (twins.split.interface_eq twins.splitPorts))
    place.writerFound

theorem sources_plan :
    place.plan.enable.source = .ident (signalName .readWrite place.index "en") 1 ∧
      place.plan.address.source =
        .ident (signalName .readWrite place.index "addr") (addressWidth descriptor.depth) ∧
      place.plan.mode.source = .ident (signalName .readWrite place.index "wmode") 1 ∧
      place.plan.mask.source = .ident (signalName .readWrite place.index "wmask") 1 ∧
      place.plan.data.source =
        .ident (signalName .readWrite place.index "wdata") descriptor.dataWidth := by
  simp only [ReadWritePlan.enable, ReadWritePlan.address, ReadWritePlan.mode, ReadWritePlan.mask,
    ReadWritePlan.data, twins.port_plan]
  exact ⟨rfl, rfl, rfl, rfl, rfl⟩

theorem sources_reader :
    place.reader.enable.source = .ident (signalName .read place.index "en") 1 ∧
      place.reader.address.source =
        .ident (signalName .read place.index "addr") (addressWidth descriptor.depth) := by
  simp only [ReadPlan.enable, ReadPlan.address, twins.port_reader]
  exact ⟨rfl, rfl⟩

theorem sources_writer :
    place.writer.enable.source = .ident (signalName .write place.index "en") 1 ∧
      place.writer.address.source =
        .ident (signalName .write place.index "addr") (addressWidth descriptor.depth) ∧
      place.writer.mask.source = .ident (signalName .write place.index "mask") 1 ∧
      place.writer.data.source =
        .ident (signalName .write place.index "data") descriptor.dataWidth := by
  simp only [WritePlan.enable, WritePlan.address, WritePlan.mask, WritePlan.data, twins.port_writer]
  exact ⟨rfl, rfl, rfl, rfl⟩

theorem staged :
    Staged place.plan.lanes descriptor.accessStages ∧
      Staged place.reader.lanes descriptor.accessStages ∧
      Staged place.writer.lanes descriptor.accessStages := by
  have joint := twins.joint.realizes.readWrite place.plan place.plan_mem
  have read := twins.split.realizes.read place.reader place.reader_mem
  have write := twins.split.realizes.write place.writer place.writer_mem
  rw [Descriptor.getD_readWriteStages?] at joint
  rw [Descriptor.getD_writeStages?] at write
  exact ⟨joint, read, write⟩

end Twins

/-- What stands behind a number of registers of a read-write port, against what stands behind as
many registers of the read port and the write port of its place. -/
structure Paired {jointLayout splitLayout : Layout} (place : Place jointLayout splitLayout)
    (stage : Nat) (joint split : Simulator) : Prop where
  readEnable : (joint.reading (place.plan.enable.tap stage)).and?
      ((joint.reading (place.plan.mode.tap stage)).eqArith (.ofNat 1 0)) =
    some (split.reading (place.reader.enable.tap stage))
  writeEnable : (joint.reading (place.plan.enable.tap stage)).and?
      (joint.reading (place.plan.mode.tap stage)) =
    some (split.reading (place.writer.enable.tap stage))
  readAddress : split.reading (place.reader.address.tap stage) =
    joint.reading (place.plan.address.tap stage)
  writeAddress : split.reading (place.writer.address.tap stage) =
    joint.reading (place.plan.address.tap stage)
  mask : split.reading (place.writer.mask.tap stage) = joint.reading (place.plan.mask.tap stage)
  data : split.reading (place.writer.data.tap stage) = joint.reading (place.plan.data.tap stage)

/-- What is paired stays so where the same stands along all lanes. -/
theorem Paired.transfer {jointLayout splitLayout : Layout} {place : Place jointLayout splitLayout}
    {stage other : Nat} {joint split jointAfter splitAfter : Simulator}
    (paired : Paired place stage joint split)
    (plans : ∀ lane ∈ place.plan.lanes,
      jointAfter.reading (lane.tap other) = joint.reading (lane.tap stage))
    (readers : ∀ lane ∈ place.reader.lanes,
      splitAfter.reading (lane.tap other) = split.reading (lane.tap stage))
    (writers : ∀ lane ∈ place.writer.lanes,
      splitAfter.reading (lane.tap other) = split.reading (lane.tap stage)) :
    Paired place other jointAfter splitAfter := by
  simp only [ReadWritePlan.lanes, List.forall_mem_cons] at plans
  simp only [ReadPlan.lanes, List.forall_mem_cons] at readers
  simp only [WritePlan.lanes, List.forall_mem_cons] at writers
  obtain ⟨enable, address, mode, mask, data, -⟩ := plans
  obtain ⟨readEnable, readAddress, -⟩ := readers
  obtain ⟨writeEnable, writeAddress, writeMask, writeData, -⟩ := writers
  constructor
  · rw [enable, mode, readEnable, paired.readEnable]
  · rw [enable, mode, writeEnable, paired.writeEnable]
  · rw [readAddress, address, paired.readAddress]
  · rw [writeAddress, address, paired.writeAddress]
  · rw [writeMask, mask, paired.mask]
  · rw [writeData, data, paired.data]

namespace Twins

variable {jointLayout splitLayout : Layout} {jointModule splitModule : Module}
  {descriptor : Descriptor} {joint split : Simulator}
  (twins : Twins jointLayout splitLayout jointModule splitModule descriptor)
  (jointState : joint.Simulates jointModule) (splitState : split.Simulates splitModule)
  (place : Place jointLayout splitLayout)

include twins

private theorem forall_lanes {joints splits : Lane → Prop} {stage : Nat}
    (inside : stage < descriptor.accessStages)
    (inJoint : ∀ circuit ∈ jointLayout.circuits, ∀ lane ∈ circuit.lanes,
      stage < lane.registers.length → joints lane)
    (inSplit : ∀ circuit ∈ splitLayout.circuits, ∀ lane ∈ circuit.lanes,
      stage < lane.registers.length → splits lane) :
    (∀ lane ∈ place.plan.lanes, joints lane) ∧ (∀ lane ∈ place.reader.lanes, splits lane) ∧
      ∀ lane ∈ place.writer.lanes, splits lane := by
  obtain ⟨plans, readers, writers⟩ := twins.staged place
  refine ⟨fun lane member => ?_, fun lane member => ?_, fun lane member => ?_⟩
  · exact inJoint _ (Layout.mem_circuits_of_readWrite place.plan_mem) lane member
      (by rwa [plans lane member])
  · exact inSplit _ (Layout.mem_circuits_of_read place.reader_mem) lane member
      (by rwa [readers lane member])
  · exact inSplit _ (Layout.mem_circuits_of_write place.writer_mem) lane member
      (by rwa [writers lane member])

include jointState splitState in
/-- At an edge, what is paired is moved on by one register on both sides. -/
theorem paired_tick {stage : Nat} (inside : stage < descriptor.accessStages)
    (paired : Paired place stage joint split) :
    Paired place (stage + 1) joint.tick.2 split.tick.2 := by
  obtain ⟨plans, readers, writers⟩ := twins.forall_lanes place inside
    (fun _ member _ inCircuit => twins.joint.reading_tap_tick jointState member inCircuit)
    (fun _ member _ inCircuit => twins.split.reading_tap_tick splitState member inCircuit)
  exact paired.transfer plans readers writers

include jointState splitState in
/-- What is paired behind registers stays so however the inputs are driven. -/
theorem paired_redriven {nextJoint nextSplit : Simulator} (jointDriven : joint.Redriven nextJoint)
    (splitDriven : split.Redriven nextSplit) {stage : Nat}
    (inside : stage < descriptor.accessStages) (paired : Paired place (stage + 1) joint split) :
    Paired place (stage + 1) nextJoint nextSplit := by
  obtain ⟨plans, readers, writers⟩ := twins.forall_lanes place inside
    (fun _ member _ inCircuit =>
      twins.joint.reading_tap_redriven jointState jointDriven member inCircuit)
    (fun _ member _ inCircuit =>
      twins.split.reading_tap_redriven splitState splitDriven member inCircuit)
  exact paired.transfer plans readers writers

/-- Everything behind registers is paired at first, as all of it is unknown. -/
theorem paired_elaborated {stage : Nat} (inside : stage < descriptor.accessStages) :
    Paired place (stage + 1) (.elaborated jointModule) (.elaborated splitModule) := by
  obtain ⟨plan, reader, writer⟩ := twins.forall_lanes place inside
    (fun _ member _ inCircuit => twins.joint.reading_tap_elaborated member inCircuit)
    (fun _ member _ inCircuit => twins.split.reading_tap_elaborated member inCircuit)
  simp only [ReadWritePlan.lanes, List.forall_mem_cons, twins.sources_plan place] at plan
  simp only [ReadPlan.lanes, List.forall_mem_cons, twins.sources_reader place] at reader
  simp only [WritePlan.lanes, List.forall_mem_cons, twins.sources_writer place] at writer
  obtain ⟨enable, address, mode, mask, data, -⟩ := plan
  obtain ⟨readEnable, readAddress, -⟩ := reader
  obtain ⟨writeEnable, writeAddress, writeMask, writeData, -⟩ := writer
  have reads : (Bits.x 1).and? ((Bits.x 1).eqArith (.ofNat 1 0)) = some (.x 1) := by decide
  have writes : (Bits.x 1).and? (.x 1) = some (.x 1) := by decide
  constructor
  · rw [enable, mode, readEnable]
    exact reads
  · rw [enable, mode, writeEnable]
    exact writes
  · rw [readAddress, address]
    rfl
  · rw [writeAddress, address]
    rfl
  · rw [writeMask, mask]
    rfl
  · rw [writeData, data]
    rfl

include jointState

theorem holds_source {lane : Lane} (inPlan : lane ∈ place.plan.lanes) : joint.Holds lane.source :=
  twins.joint.holds_signal jointState
    ((Layout.signals_of_circuit (Layout.mem_circuits_of_readWrite place.plan_mem)).2 lane inPlan)

/-- The enables of the separate ports can be computed from the inputs of a place. -/
theorem evaluates_enables :
    ∃ reads writes : Bits,
      (joint.reading place.plan.enable.source).and?
        ((joint.reading place.plan.mode.source).eqArith (.ofNat 1 0)) = some reads ∧
      (joint.reading place.plan.enable.source).and? (joint.reading place.plan.mode.source) =
        some writes ∧
      reads.width = 1 ∧ writes.width = 1 ∧
      joint.Evaluates 1 (.combine .and (.ident (signalName .readWrite place.index "en"))
        (.combine .equal (.ident (signalName .readWrite place.index "wmode"))
          (.constant 1 0))) reads ∧
      joint.Evaluates 1 (.combine .and (.ident (signalName .readWrite place.index "en"))
        (.ident (signalName .readWrite place.index "wmode"))) writes := by
  have enable := twins.holds_source jointState place
    (show place.plan.enable ∈ place.plan.lanes by simp [ReadWritePlan.lanes])
  have mode := twins.holds_source jointState place
    (show place.plan.mode ∈ place.plan.lanes by simp [ReadWritePlan.lanes])
  simp only [twins.sources_plan place] at enable mode ⊢
  obtain ⟨reads, readsIs, readsSingle, -⟩ := Bits.and?_of_width_eq_one enable.width
    (Bits.width_eqArith (joint.reading (.ident (signalName .readWrite place.index "wmode") 1))
      (.ofNat 1 0))
  obtain ⟨writes, writesIs, writesSingle, -⟩ := Bits.and?_of_width_eq_one enable.width mode.width
  exact ⟨reads, writes, readsIs, writesIs, readsSingle, writesSingle,
    enable.evaluates.and (mode.evaluates.equal (.number _)) readsIs,
    enable.evaluates.and mode.evaluates writesIs⟩

theorem paired_of_mirrors (mirrors : Mirrors descriptor.readWritePorts joint split) :
    Paired place 0 joint split := by
  have holds := fun lane (inPlan : lane ∈ place.plan.lanes) =>
    twins.holds_source jointState place inPlan
  simp only [ReadWritePlan.lanes, List.forall_mem_cons] at holds
  obtain ⟨-, address, -, mask, data, -⟩ := holds
  obtain ⟨reads, writes, readsIs, writesIs, -, -, readEnable, writeEnable⟩ :=
    twins.evaluates_enables jointState place
  have given := mirrors place.index (twins.index_lt place)
  simp only [separateInputs, List.forall_mem_cons] at given
  obtain ⟨readGiven, readAddress, writeGiven, writeAddress, maskGiven, dataGiven, -⟩ := given
  have shows : ∀ {name : String} {expr : Expr} {bits : Bits} {width : Nat},
      split.get name = expr.eval joint.environment → joint.Evaluates 1 expr bits →
        split.reading (.ident name width) = bits := fun same evaluates =>
    Simulator.reading_of_eval (same.trans (evaluates.eval (by decide)))
  simp only [twins.sources_plan place] at address mask data readsIs writesIs
  constructor <;> simp only [Lane.tap, twins.sources_plan place, twins.sources_reader place,
    twins.sources_writer place]
  · rw [readsIs, shows readGiven readEnable]
  · rw [writesIs, shows writeGiven writeEnable]
  · exact shows readAddress address.evaluates
  · exact shows writeAddress address.evaluates
  · exact shows maskGiven mask.evaluates
  · exact shows dataGiven data.evaluates

private theorem fits_separateInputs :
    ∀ drive ∈ separateInputs place.index, ∃ width bits,
      .ident drive.1 width ∈ splitLayout.interface.signals ∧ joint.Evaluates 1 drive.2 bits ∧
        bits.width = width := by
  have holds := fun lane (inPlan : lane ∈ place.plan.lanes) =>
    twins.holds_source jointState place inPlan
  have reader :=
    (Layout.signals_of_circuit (Layout.mem_circuits_of_read place.reader_mem)).2
  have writer :=
    (Layout.signals_of_circuit (Layout.mem_circuits_of_write place.writer_mem)).2
  simp only [ReadWritePlan.lanes, List.forall_mem_cons] at holds
  simp only [ReadPlan.circuit, ReadPlan.lanes, List.forall_mem_cons] at reader
  simp only [WritePlan.circuit, WritePlan.lanes, List.forall_mem_cons] at writer
  obtain ⟨-, address, -, mask, data, -⟩ := holds
  obtain ⟨readEnable, readAddress, -⟩ := reader
  obtain ⟨writeEnable, writeAddress, writeMask, writeData, -⟩ := writer
  obtain ⟨reads, writes, -, -, readsSingle, writesSingle, readsIs, writesIs⟩ :=
    twins.evaluates_enables jointState place
  simp only [twins.sources_plan place] at address mask data
  simp only [twins.sources_reader place] at readEnable readAddress
  simp only [twins.sources_writer place] at writeEnable writeAddress writeMask writeData
  simp only [separateInputs, List.forall_mem_cons, List.not_mem_nil, false_implies, implies_true,
    and_true]
  exact ⟨⟨1, reads, readEnable, readsIs, readsSingle⟩,
    ⟨_, _, readAddress, address.evaluates, address.width⟩,
    ⟨1, writes, writeEnable, writesIs, writesSingle⟩,
    ⟨_, _, writeAddress, address.evaluates, address.width⟩,
    ⟨_, _, writeMask, mask.evaluates, mask.width⟩, ⟨_, _, writeData, data.evaluates, data.width⟩⟩

include splitState

private theorem computed_separateInputs :
    ∀ drive ∈ separateInputs place.index,
      drive.2.eval joint.environment = .ok (joint.reading ⟨drive.2, 1⟩) ∧
        (split.inputs.get? drive.1).map Bits.width =
          some (joint.reading ⟨drive.2, 1⟩).width := by
  intro drive inPlace
  obtain ⟨width, bits, given, evaluates, wide⟩ :=
    twins.fits_separateInputs jointState place drive inPlace
  have evaluated := evaluates.eval (by decide)
  have read : joint.reading ⟨drive.2, 1⟩ = bits := Simulator.reading_of_eval evaluated
  obtain ⟨port, isInput, same⟩ := twins.split.mem_inputs_of_signals given
  obtain ⟨held, found, size⟩ := splitState.input twins.split.distinct isInput
  simp only [Signal.ident, Signal.mk.injEq, Expr.ident.injEq] at same
  rw [read, same.1, found, Option.map_some, size, wide, same.2]
  exact ⟨evaluated, rfl⟩

/-- However the inputs of the first memory are driven, those of the second one can mirror them. -/
theorem exists_mirrors :
    ∃ next, split.Redriven next ∧ Mirrors descriptor.readWritePorts joint next := by
  let drives := (List.range descriptor.readWritePorts).flatMap separateInputs
  let values := drives.map fun drive => (drive.1, joint.reading ⟨drive.2, 1⟩)
  have distinct : (values.map Prod.fst).Nodup := by
    rw [List.map_map]
    exact nodup_separateInputs descriptor.readWritePorts
  have computed : ∀ drive ∈ drives,
      drive.2.eval joint.environment = .ok (joint.reading ⟨drive.2, 1⟩) ∧
        (split.inputs.get? drive.1).map Bits.width =
          some (joint.reading ⟨drive.2, 1⟩).width := by
    intro drive member
    obtain ⟨index, inRange, inPlace⟩ := List.mem_flatMap.mp member
    obtain ⟨place, rfl⟩ := twins.exists_place (List.mem_range.mp inRange)
    exact twins.computed_separateInputs jointState splitState place drive inPlace
  have fits : ∀ entry ∈ values,
      (split.inputs.get? entry.1).map Bits.width = some entry.2.width := by
    intro entry member
    obtain ⟨drive, inDrives, rfl⟩ := List.mem_map.mp member
    exact (computed drive inDrives).2
  obtain ⟨next, driven, set, -⟩ := split.exists_redriven values distinct fits
  refine ⟨next, driven, ?_⟩
  intro index inside drive inPlace
  have inDrives : drive ∈ drives :=
    List.mem_flatMap.mpr ⟨index, List.mem_range.mpr inside, inPlace⟩
  have held : next.held? drive.1 = some (joint.reading ⟨drive.2, 1⟩) := by
    have found := set _ (List.mem_map_of_mem inDrives)
    simp only at found
    simp [Simulator.held?, found]
  rw [(computed drive inDrives).1]
  exact (Simulator.Evaluates.held held).get (by decide)

end Twins
end Multiport.Memory
