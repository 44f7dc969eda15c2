import Multiport.Proofs.Memory.Description

namespace Multiport

/-- The signal has a value of its width, held under a name. -/
structure Simulator.Holds (sim : Simulator) (signal : Signal) : Prop where
  evaluates : sim.Evaluates 1 signal.expr (sim.reading signal)
  width : (sim.reading signal).width = signal.width

theorem Simulator.holds_of_held {sim : Simulator} {name : String} {bits : Bits}
    (found : sim.held? name = some bits) : sim.Holds (.ident name bits.width) := by
  have evaluates := Simulator.Evaluates.held found
  have same : sim.reading (.ident name bits.width) = bits :=
    Simulator.reading_of_eval (evaluates.eval (by decide))
  exact ⟨by rw [same]; exact evaluates, by rw [same]; rfl⟩

theorem Simulator.Holds.eval {sim : Simulator} {signal : Signal} (holds : sim.Holds signal) :
    signal.expr.eval sim.environment = .ok (sim.reading signal) :=
  holds.evaluates.eval (by decide)

namespace Memory

private theorem Circuit.assigned_blocks {layout : Layout} {circuit : Circuit}
    (member : circuit ∈ layout.circuits) {name : String} (named : circuit.clock.expr = .ident name)
    (apart : ∀ lane ∈ circuit.lanes, ∀ register ∈ lane.registers,
      register ≠ layout.storage.name) :
    (((circuit.items.flatMap Item.clockedBlocks).flatMap fun block =>
      Statement.assignedAll block.body).filter (· ≠ layout.storage.name)) =
        circuit.lanes.flatMap Lane.registers := by
  have logic : ((circuit.logic.flatMap Item.clockedBlocks).flatMap fun block =>
      Statement.assignedAll block.body).filter (· ≠ layout.storage.name) = [] := by
    rcases Layout.cases_of_mem_circuits member with
      ⟨plan, -, rfl⟩ | ⟨plan, -, rfl⟩ | ⟨plan, -, rfl⟩
    · rfl
    · simp [ReadWritePlan.clockedBlocks_logic named]
    · simp [WritePlan.clockedBlocks_logic named]
  rw [circuit.clockedBlocks_items named, List.flatMap_append, List.filter_append, logic,
    List.append_nil, List.flatMap_assoc]
  simp only [Lane.assigned_blocks]
  apply List.filter_eq_self.mpr
  intro register member
  obtain ⟨lane, inCircuit, inLane⟩ := List.mem_flatMap.mp member
  simpa using apart lane inCircuit register inLane

namespace Layout.Describes

variable {layout : Layout} {module : Module} {descriptor : Descriptor} {sim : Simulator}

theorem clocked (describes : layout.Describes module descriptor) (state : sim.Simulates module) :
    sim.clocked =
      layout.circuits.flatMap fun circuit => circuit.items.flatMap Item.clockedBlocks := by
  rw [state.clocked, describes.items, layout.clockedBlocks_items]

/-- At edges each register behind an input is assigned in one place, and so is nothing else but the
storage. -/
theorem assigned_clocked (describes : layout.Describes module descriptor)
    (state : sim.Simulates module) :
    ((sim.clocked.flatMap fun block => Statement.assignedAll block.body).filter
      (· ≠ layout.storage.name)) = layout.registers := by
  rw [describes.clocked state, List.flatMap_assoc, List.filter_flatMap, registers]
  apply List.flatMap_congr
  intro circuit member
  obtain ⟨port, -, named⟩ := describes.clock member
  apply circuit.assigned_blocks member named
  intro lane inCircuit register inLane
  exact describes.register_ne_storage (mem_registers member inCircuit inLane)

/-- A declared name that no port has and no edge changes has no value of its own. -/
theorem held?_eq_none (describes : layout.Describes module descriptor)
    (state : sim.Simulates module) {declaration : Declaration}
    (declared : declaration ∈ module.declarations)
    (unclocked : declaration.name ∈ module.settledEntries.map Prod.fst ∨
      ∀ width, Declaration.reg width declaration.name ∉ module.declarations) :
    sim.held? declaration.name = none := by
  rw [Simulator.held?, state.inputs_of_declaration describes.distinct declared,
    state.registers_eq_none unclocked]
  rfl

theorem holds_signal (describes : layout.Describes module descriptor) (state : sim.Simulates module)
    {signal : Signal} (member : signal ∈ layout.interface.signals) : sim.Holds signal := by
  obtain ⟨port, given, rfl⟩ := describes.mem_inputs_of_signals member
  obtain ⟨bits, found, wide⟩ := state.input describes.distinct given
  rw [← wide]
  exact Simulator.holds_of_held (by simp [Simulator.held?, found])

theorem settledNames (describes : layout.Describes module descriptor) :
    module.settledEntries.map Prod.fst = layout.readWrite.flatMap fun plan =>
      [plan.held, plan.held] := by
  rw [Module.settledEntries, describes.items, layout.settledEntries_items, List.map_flatMap]
  rfl

theorem unsettled (describes : layout.Describes module descriptor) {register : String}
    (member : register ∈ layout.registers) : register ∉ module.settledEntries.map Prod.fst := by
  rw [describes.settledNames]
  intro settled
  obtain ⟨plan, inReadWrite, named⟩ := List.mem_flatMap.mp settled
  refine describes.register_not_mem_logicNames member (List.mem_flatMap.mpr ⟨plan, inReadWrite, ?_⟩)
  simp only [List.mem_cons, List.not_mem_nil, or_false, or_self] at named ⊢
  exact .inr (.inr named)

theorem register (describes : layout.Describes module descriptor)
    (state : sim.Simulates module) {circuit : Circuit} (member : circuit ∈ layout.circuits)
    {lane : Lane} (inCircuit : lane ∈ circuit.lanes) {register : String}
    (inLane : register ∈ lane.registers) :
    sim.inputs.get? register = none ∧
      ∃ bits, sim.registers.get? register = some bits ∧ bits.width = lane.source.width := by
  have declared := mem_declarations_of_lane member inCircuit inLane
  rw [← describes.declarations] at declared
  exact ⟨state.inputs_of_declaration describes.distinct declared,
    state.register describes.distinct declared
      (describes.unsettled (mem_registers member inCircuit inLane))⟩

theorem holds_output (describes : layout.Describes module descriptor) (state : sim.Simulates module)
    {circuit : Circuit} (member : circuit ∈ layout.circuits) {lane : Lane}
    (inCircuit : lane ∈ circuit.lanes) : sim.Holds lane.output := by
  cases last : lane.registers.getLast? with
  | none =>
    have output : lane.output = lane.source := by simp [Lane.output, last]
    rw [output]
    exact describes.holds_signal state ((signals_of_circuit member).2 lane inCircuit)
  | some register =>
    have output : lane.output = .ident register lane.source.width := by
      simp [Lane.output, last, Signal.ident]
    obtain ⟨free, bits, found, wide⟩ :=
      describes.register state member inCircuit (List.mem_of_getLast? last)
    rw [output, ← wide]
    exact Simulator.holds_of_held (by simp [Simulator.held?, free, found])

theorem holds_read (describes : layout.Describes module descriptor) (state : sim.Simulates module)
    {plan : ReadPlan} (member : plan ∈ layout.read) :
    sim.Holds plan.enable.output ∧ sim.Holds plan.address.output := by
  have holds : ∀ lane ∈ plan.lanes, sim.Holds lane.output := fun _ inPlan =>
    describes.holds_output state (mem_circuits_of_read member) inPlan
  simpa [ReadPlan.lanes] using holds

theorem holds_readWrite (describes : layout.Describes module descriptor)
    (state : sim.Simulates module) {plan : ReadWritePlan} (member : plan ∈ layout.readWrite) :
    sim.Holds plan.enable.output ∧ sim.Holds plan.address.output ∧ sim.Holds plan.mode.output ∧
      sim.Holds plan.mask.output ∧ sim.Holds plan.data.output := by
  have holds : ∀ lane ∈ plan.lanes, sim.Holds lane.output := fun _ inPlan =>
    describes.holds_output state (mem_circuits_of_readWrite member) inPlan
  simpa [ReadWritePlan.lanes] using holds

theorem holds_write (describes : layout.Describes module descriptor) (state : sim.Simulates module)
    {plan : WritePlan} (member : plan ∈ layout.write) :
    sim.Holds plan.enable.output ∧ sim.Holds plan.address.output ∧ sim.Holds plan.mask.output ∧
      sim.Holds plan.data.output := by
  have holds : ∀ lane ∈ plan.lanes, sim.Holds lane.output := fun _ inPlan =>
    describes.holds_output state (mem_circuits_of_write member) inPlan
  simpa [WritePlan.lanes] using holds

/-- Every register behind an input captures what stands before it. -/
theorem captures (describes : layout.Describes module descriptor) (state : sim.Simulates module)
    {circuit : Circuit} (member : circuit ∈ layout.circuits) {lane : Lane}
    (inCircuit : lane ∈ circuit.lanes) {capture : String × Expr}
    (captured : capture ∈ lane.captures) :
    sim.Captures circuit.clock capture.1 lane.source.width capture.2 := by
  obtain ⟨port, -, named⟩ := describes.clock member
  have inLane := Lane.register_of_mem_captures captured
  obtain ⟨free, holds⟩ := describes.register state member inCircuit inLane
  let block : ClockedBlock := ⟨port.name, Lane.captureBody capture⟩
  have present : block ∈ sim.clocked := by
    rw [describes.clocked state]
    refine List.mem_flatMap.mpr ⟨circuit, member, ?_⟩
    rw [circuit.clockedBlocks_items named]
    exact List.mem_append_left _ (List.mem_flatMap.mpr
      ⟨lane, inCircuit, List.mem_map.mpr ⟨capture, captured, rfl⟩⟩)
  obtain ⟨before, after, split⟩ := List.append_of_mem present
  refine ⟨⟨port.name, before, after, named, split, ?_⟩, free, holds⟩
  -- Each name but the storage is assigned once, and the block in the middle assigns this one.
  have once : ((sim.clocked.flatMap fun block => Statement.assignedAll block.body).filter
      (· ≠ layout.storage.name)).Nodup := by
    rw [describes.assigned_clocked state]
    exact describes.nodup_registers
  have other := describes.register_ne_storage (mem_registers member inCircuit inLane)
  rw [split, ((List.perm_middle.flatMap_right _).filter _).nodup_iff, List.flatMap_cons,
    List.filter_append] at once
  intro otherBlock around assigns
  refine (List.nodup_append.mp once).2.2 capture.1 ?_ capture.1 ?_ rfl
  · exact List.mem_filter.mpr ⟨List.mem_cons_self, by simpa using other⟩
  · exact List.mem_filter.mpr
      ⟨List.mem_flatMap.mpr ⟨otherBlock, around, assigns⟩, by simpa using other⟩

theorem storage (describes : layout.Describes module descriptor) (state : sim.Simulates module) :
    ∃ array, sim.arrays.get? layout.storage.name = some array ∧
      array.width = layout.storage.width ∧ array.depth = layout.storage.depth ∧
      array.Uniform := by
  apply state.array describes.distinct
  rw [describes.declarations, layout.declarations_items]
  exact List.mem_cons_self

/-- What stands behind a lane is called by a name that belongs to no logic of a port. -/
theorem exists_output_name (describes : layout.Describes module descriptor) {circuit : Circuit}
    (member : circuit ∈ layout.circuits) {lane : Lane} (inCircuit : lane ∈ circuit.lanes) :
    ∃ name, lane.output.expr = .ident name ∧ name ∉ layout.logicNames := by
  cases last : lane.registers.getLast? with
  | none =>
    obtain ⟨port, given, same⟩ :=
      describes.mem_inputs_of_signals ((signals_of_circuit member).2 lane inCircuit)
    refine ⟨port.name, by simp [Lane.output, last, same, Signal.ident], fun inLogic => ?_⟩
    exact (List.nodup_append.mp describes.nodup).2.2 port.name
      (List.mem_map.mpr ⟨port, Module.inputs_subset given, rfl⟩) port.name
      (List.mem_cons_of_mem _ (List.mem_append_right _ inLogic)) rfl
  | some register =>
    have inRegisters := mem_registers member inCircuit (List.mem_of_getLast? last)
    exact ⟨register, by simp [Lane.output, last],
      describes.register_not_mem_logicNames inRegisters⟩

theorem evaluates_value (describes : layout.Describes module descriptor)
    (state : sim.Simulates module) {plan : ReadPlan} (member : plan ∈ layout.read)
    {array : WordArray} (stored : sim.arrays.get? layout.storage.name = some array) :
    sim.Evaluates 1 (plan.value layout.storage).expr
      (if sim.reading plan.enable.output = .ofNat 1 1 then
        array.read (sim.reading plan.address.output)
      else .x layout.storage.width) := by
  obtain ⟨enable, address⟩ := describes.holds_read state member
  have single : (sim.reading plan.enable.output).width = 1 :=
    enable.width.trans (describes.widths_read member).2
  obtain ⟨present, found, wide, -, uniform⟩ := describes.storage state
  obtain rfl := Option.some.inj (stored.symm.trans found)
  have guarded := Simulator.Evaluates.guarded enable.evaluates
    (Simulator.Evaluates.word stored address.evaluates)
    ((array.width_read uniform _).trans wide)
  simp only [Bits.isTrue_iff_of_width_eq_one single] at guarded
  exact guarded

theorem length_values (describes : layout.Describes module descriptor) :
    layout.values.length = layout.outputs.length := by
  rw [layout.length_values, describes.realizes.groups.read, describes.realizes.groups.readWrite,
    describes.realizes.outputCount]
  rfl

theorem driverEntries (describes : layout.Describes module descriptor) :
    module.driverEntries =
      (layout.readWrite.flatMap fun plan =>
        [(plan.writes, plan.writeCondition), (plan.reads, plan.readCondition)]) ++
      (layout.outputs.zip layout.values).map fun pair => (pair.1.name, pair.2.expr) := by
  rw [Module.driverEntries, describes.items, layout.driverEntries_items]

theorem driverNames (describes : layout.Describes module descriptor) :
    module.driverEntries.map Prod.fst = layout.netNames ++ module.outputs.map Port.name := by
  have paired : (layout.outputs.zip layout.values).map Prod.fst = layout.outputs :=
    List.map_fst_zip (Nat.le_of_eq describes.length_values.symm)
  rw [← describes.outputs, describes.driverEntries]
  conv_rhs => rw [← paired]
  simp [netNames, List.map_flatMap]

theorem nodup_drivers (describes : layout.Describes module descriptor) :
    (module.driverEntries.map Prod.fst).Nodup := by
  have outputs : (module.outputs.map Port.name).Sublist (module.ports.map Port.name) :=
    List.filter_sublist.map Port.name
  rw [describes.driverNames]
  refine List.nodup_append.mpr ⟨(List.nodup_append.mp describes.nodup_nets_held).1,
    (List.nodup_append.mp describes.nodup).1.sublist outputs, ?_⟩
  intro net inNets output inOutputs same
  have inLogic := layout.netNames_append_heldNames_perm.subset (List.mem_append_left _ inNets)
  exact (List.nodup_append.mp describes.nodup).2.2 output (outputs.subset inOutputs) net
    (List.mem_cons_of_mem _ (List.mem_append_right _ inLogic)) same.symm

theorem driver (describes : layout.Describes module descriptor)
    (state : sim.Simulates module) {entry : String × Expr} (driven : entry ∈ module.driverEntries) :
    sim.drivers.get? entry.1 = some entry.2 := by
  apply state.driver driven
  intro other inEntries named
  rw [List.inj_on_of_nodup_map describes.nodup_drivers inEntries driven named]

private theorem evaluates_net (describes : layout.Describes module descriptor)
    (state : sim.Simulates module) {name : String} {value : Expr} {bits : Bits} {rank : Nat}
    (declared : .net 1 name ∈ module.declarations)
    (driven : (name, value) ∈ module.driverEntries) (evaluates : sim.Evaluates rank value bits)
    (single : bits.width = 1) : sim.Evaluates (rank + 1) (.ident name) bits := by
  have free : sim.held? name = none := by
    refine describes.held?_eq_none state declared (.inr fun width register => ?_)
    have same := Module.declaration_eq_of_name_eq describes.distinct declared register rfl
    cases same
  have wide := state.width_of_declaration describes.distinct declared rfl
  have followed := Simulator.Evaluates.driven free (describes.driver state driven) wide evaluates
  rwa [Bits.resize_of_width_eq single] at followed

/-- A read-write port takes its inputs for a write if enable, mask and mode are all `1`. -/
theorem evaluates_writeCondition (describes : layout.Describes module descriptor)
    (state : sim.Simulates module) {plan : ReadWritePlan} (member : plan ∈ layout.readWrite) :
    ∃ bits, sim.Evaluates 1 plan.writeCondition bits ∧ bits.width = 1 ∧
      (bits = .ofNat 1 1 ↔ sim.reading plan.enable.output = .ofNat 1 1 ∧
        sim.reading plan.mask.output = .ofNat 1 1 ∧
        sim.reading plan.mode.output = .ofNat 1 1) := by
  obtain ⟨enable, -, mode, mask, -⟩ := describes.holds_readWrite state member
  obtain ⟨-, enableSize, modeSize, maskSize, -⟩ := describes.widths_readWrite member
  obtain ⟨chosen, chosenIs, chosenSize, chosenOne⟩ := Bits.and?_of_width_eq_one
    (mask.width.trans maskSize) (mode.width.trans modeSize)
  obtain ⟨bits, bitsIs, bitsSize, bitsOne⟩ := Bits.and?_of_width_eq_one
    (enable.width.trans enableSize) chosenSize
  refine ⟨bits, enable.evaluates.and (mask.evaluates.and mode.evaluates chosenIs) bitsIs,
    bitsSize, ?_⟩
  rw [bitsOne, chosenOne]

theorem evaluates_readCondition (describes : layout.Describes module descriptor)
    (state : sim.Simulates module) {plan : ReadWritePlan} (member : plan ∈ layout.readWrite) :
    ∃ bits, sim.Evaluates 1 plan.readCondition bits ∧ bits.width = 1 ∧
      (bits = .ofNat 1 1 ↔ sim.reading plan.enable.output = .ofNat 1 1 ∧
        sim.reading plan.mode.output = .ofNat 1 0) := by
  obtain ⟨enable, -, mode, -⟩ := describes.holds_readWrite state member
  obtain ⟨-, enableSize, modeSize, -⟩ := describes.widths_readWrite member
  obtain ⟨bits, bitsIs, bitsSize, bitsOne⟩ := Bits.and?_of_width_eq_one
    (enable.width.trans enableSize)
    (Bits.width_eqArith (sim.reading plan.mode.output) (.ofNat 1 0))
  refine ⟨bits, enable.evaluates.and (mode.evaluates.equal (.number _)) bitsIs, bitsSize, ?_⟩
  rw [bitsOne, Bits.eqArith_zero_iff (mode.width.trans modeSize)]

theorem evaluates_writes (describes : layout.Describes module descriptor)
    (state : sim.Simulates module) {plan : ReadWritePlan} (member : plan ∈ layout.readWrite) :
    ∃ bits, sim.Evaluates 2 (.ident plan.writes) bits ∧ bits.width = 1 ∧
      (bits = .ofNat 1 1 ↔ sim.reading plan.enable.output = .ofNat 1 1 ∧
        sim.reading plan.mask.output = .ofNat 1 1 ∧
        sim.reading plan.mode.output = .ofNat 1 1) := by
  obtain ⟨bits, condition, single, one⟩ := describes.evaluates_writeCondition state member
  have declared := (mem_declarations_of_readWrite member).1
  rw [← describes.declarations] at declared
  have driven : (plan.writes, plan.writeCondition) ∈ module.driverEntries := by
    rw [describes.driverEntries]
    exact List.mem_append_left _ (List.mem_flatMap.mpr ⟨plan, member, List.mem_cons_self⟩)
  exact ⟨bits, describes.evaluates_net state declared driven condition single, single, one⟩

theorem evaluates_reads (describes : layout.Describes module descriptor)
    (state : sim.Simulates module) {plan : ReadWritePlan} (member : plan ∈ layout.readWrite) :
    ∃ bits, sim.Evaluates 2 (.ident plan.reads) bits ∧ bits.width = 1 ∧
      (bits = .ofNat 1 1 ↔ sim.reading plan.enable.output = .ofNat 1 1 ∧
        sim.reading plan.mode.output = .ofNat 1 0) := by
  obtain ⟨bits, condition, single, one⟩ := describes.evaluates_readCondition state member
  have declared := (mem_declarations_of_readWrite member).2.1
  rw [← describes.declarations] at declared
  have driven : (plan.reads, plan.readCondition) ∈ module.driverEntries := by
    rw [describes.driverEntries]
    exact List.mem_append_left _ (List.mem_flatMap.mpr
      ⟨plan, member, List.mem_cons_of_mem _ List.mem_cons_self⟩)
  exact ⟨bits, describes.evaluates_net state declared driven condition single, single, one⟩

end Layout.Describes
end Memory
end Multiport
