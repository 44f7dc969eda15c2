import Mathlib.Data.List.Perm.Basic
import Multiport.Proofs.Memory.Wiring

namespace Multiport.Memory

namespace Layout

def registers (layout : Layout) : List String :=
  layout.circuits.flatMap fun circuit => circuit.lanes.flatMap Lane.registers

def logicNames (layout : Layout) : List String :=
  layout.readWrite.flatMap fun plan => [plan.writes, plan.reads, plan.held]

/-- The names of the nets, two for each read-write port. -/
def netNames (layout : Layout) : List String :=
  layout.readWrite.flatMap fun plan => [plan.writes, plan.reads]

/-- The registers that show what the read-write ports read. -/
def heldNames (layout : Layout) : List String := layout.readWrite.map ReadWritePlan.held

theorem netNames_append_heldNames_perm (layout : Layout) :
    (layout.netNames ++ layout.heldNames).Perm layout.logicNames := by
  rw [heldNames, List.map_eq_flatMap]
  exact List.flatMap_append_perm layout.readWrite _ _

theorem declared_perm (layout : Layout) :
    ((layout.items.flatMap Item.declared).map Declaration.name).Perm
      (layout.storage.name :: (layout.registers ++ layout.logicNames)) := by
  have logic : (layout.circuits.flatMap fun circuit =>
      (circuit.logic.flatMap Item.declared).map Declaration.name) = layout.logicNames := by
    simp [circuits, List.flatMap_map, ReadPlan.circuit, ReadWritePlan.circuit, WritePlan.circuit,
      ReadWritePlan.logic, Item.declared, Declaration.net, Declaration.reg, logicNames,
      flatMap_nothing]
  have lanes : ∀ circuit : Circuit, (circuit.declarations.map Declaration.name) =
      circuit.lanes.flatMap Lane.registers ++
        (circuit.logic.flatMap Item.declared).map Declaration.name := by
    intro circuit
    simp [Circuit.declarations, Lane.declarations, List.map_flatMap, Declaration.reg,
      Function.comp_def]
  rw [layout.declarations_items, List.map_cons, List.map_flatMap]
  simp only [lanes]
  rw [← logic]
  exact (List.flatMap_append_perm layout.circuits _ _).symm.cons _

/-- A module has the ports and items of a layout for a descriptor, and its names are distinct. -/
structure Describes (layout : Layout) (module : Module) (descriptor : Descriptor) : Prop where
  ports : module.ports = layout.ports
  items : module.items = layout.items
  realizes : layout.Realizes descriptor
  distinct : module.names.Nodup

end Layout

theorem exists_describes_of_lower {scope : Scope} {name : String} {ports : List Port}
    {descriptor : Descriptor} {options : LoweringOptions} {module : Module}
    (lowered : lower scope name ports descriptor options = .ok module)
    (distinct : (ports.map Port.name).Nodup) :
    ∃ layout : Layout, layout.Describes module descriptor ∧ module.ports = ports := by
  obtain ⟨layout, samePorts, givenPorts, sameItems, realizes, names⟩ :=
    lower_layout lowered distinct
  refine ⟨layout, ⟨samePorts, sameItems, realizes, ?_⟩, samePorts.trans givenPorts⟩
  rwa [Module.names, Module.declarations, samePorts, sameItems]

namespace Layout.Describes

variable {layout : Layout} {module : Module} {descriptor : Descriptor}

theorem declarations (describes : layout.Describes module descriptor) :
    module.declarations = layout.items.flatMap Item.declared := by
  rw [Module.declarations, describes.items]

theorem inputs (describes : layout.Describes module descriptor) :
    layout.inputs = module.inputs.map fun port => .ident port.name port.width := by
  rw [Layout.inputs, ← describes.ports]
  rfl

theorem outputs (describes : layout.Describes module descriptor) :
    layout.outputs = module.outputs := by
  rw [Layout.outputs, ← describes.ports]
  rfl

/-- The names of the ports, the storage, the registers and the logic are distinct. -/
theorem nodup (describes : layout.Describes module descriptor) :
    (module.ports.map Port.name ++
      (layout.storage.name :: (layout.registers ++ layout.logicNames))).Nodup := by
  have distinct := describes.distinct
  rw [Module.names, describes.declarations] at distinct
  exact (layout.declared_perm.append_left _).nodup_iff.mp distinct

theorem nodup_declared (describes : layout.Describes module descriptor) :
    (layout.storage.name :: (layout.registers ++ layout.logicNames)).Nodup :=
  (List.nodup_append.mp describes.nodup).2.1

theorem nodup_logicNames (describes : layout.Describes module descriptor) :
    layout.logicNames.Nodup :=
  (List.nodup_append.mp (List.nodup_cons.mp describes.nodup_declared).2).2.1

theorem nodup_nets_held (describes : layout.Describes module descriptor) :
    (layout.netNames ++ layout.heldNames).Nodup :=
  layout.netNames_append_heldNames_perm.nodup_iff.mpr describes.nodup_logicNames

theorem nodup_registers (describes : layout.Describes module descriptor) :
    layout.registers.Nodup :=
  (List.nodup_append.mp (List.nodup_cons.mp describes.nodup_declared).2).1

theorem register_ne_storage (describes : layout.Describes module descriptor) {register : String}
    (member : register ∈ layout.registers) : register ≠ layout.storage.name := by
  rintro rfl
  exact (List.nodup_cons.mp describes.nodup_declared).1 (List.mem_append_left _ member)

theorem held_ne_storage (describes : layout.Describes module descriptor) {plan : ReadWritePlan}
    (member : plan ∈ layout.readWrite) : plan.held ≠ layout.storage.name := by
  intro same
  refine (List.nodup_cons.mp describes.nodup_declared).1 (List.mem_append_right _ ?_)
  exact List.mem_flatMap.mpr ⟨plan, member, by simp [same]⟩

theorem register_not_mem_logicNames (describes : layout.Describes module descriptor)
    {register : String} (member : register ∈ layout.registers) :
    register ∉ layout.logicNames := fun inLogic =>
  (List.nodup_append.mp (List.nodup_cons.mp describes.nodup_declared).2).2.2 _ member _ inLogic rfl

theorem mem_inputs_of_signals (describes : layout.Describes module descriptor) {signal : Signal}
    (member : signal ∈ layout.interface.signals) :
    ∃ port ∈ module.inputs, signal = .ident port.name port.width := by
  rw [describes.realizes.groups.signals, describes.inputs] at member
  obtain ⟨port, given, same⟩ := List.mem_map.mp member
  exact ⟨port, given, same.symm⟩

end Layout.Describes

namespace Layout

variable {layout : Layout}

theorem signals_of_read {plan : ReadPlan} (member : plan ∈ layout.read) {signal : Signal}
    (inPort : signal ∈ plan.port.signals) : signal ∈ layout.interface.signals :=
  List.mem_append_left _ (List.mem_append_left _
    (List.mem_flatMap.mpr ⟨plan.port, List.mem_map.mpr ⟨plan, member, rfl⟩, inPort⟩))

theorem signals_of_readWrite {plan : ReadWritePlan} (member : plan ∈ layout.readWrite)
    {signal : Signal} (inPort : signal ∈ plan.port.signals) :
    signal ∈ layout.interface.signals :=
  List.mem_append_left _ (List.mem_append_right _
    (List.mem_flatMap.mpr ⟨plan.port, List.mem_map.mpr ⟨plan, member, rfl⟩, inPort⟩))

theorem signals_of_write {plan : WritePlan} (member : plan ∈ layout.write) {signal : Signal}
    (inPort : signal ∈ plan.port.signals) : signal ∈ layout.interface.signals :=
  List.mem_append_right _
    (List.mem_flatMap.mpr ⟨plan.port, List.mem_map.mpr ⟨plan, member, rfl⟩, inPort⟩)

/-- The clock of a circuit and what its lanes delay are input signals. -/
theorem signals_of_circuit {circuit : Circuit} (member : circuit ∈ layout.circuits) :
    circuit.clock ∈ layout.interface.signals ∧
      ∀ lane ∈ circuit.lanes, lane.source ∈ layout.interface.signals := by
  rcases cases_of_mem_circuits member with
    ⟨plan, inRead, rfl⟩ | ⟨plan, inReadWrite, rfl⟩ | ⟨plan, inWrite, rfl⟩
  · have signals : ∀ signal ∈ plan.port.signals, signal ∈ layout.interface.signals :=
      fun _ inPort => signals_of_read inRead inPort
    simp only [ReadPort.signals, List.mem_cons, List.not_mem_nil, or_false] at signals
    simp [ReadPlan.circuit, ReadPlan.lanes, ReadPlan.enable, ReadPlan.address, signals]
  · have signals : ∀ signal ∈ plan.port.signals, signal ∈ layout.interface.signals :=
      fun _ inPort => signals_of_readWrite inReadWrite inPort
    simp only [ReadWritePort.signals, List.mem_cons, List.not_mem_nil, or_false] at signals
    simp [ReadWritePlan.circuit, ReadWritePlan.lanes, ReadWritePlan.enable, ReadWritePlan.address,
      ReadWritePlan.mode, ReadWritePlan.mask, ReadWritePlan.data, signals]
  · have signals : ∀ signal ∈ plan.port.signals, signal ∈ layout.interface.signals :=
      fun _ inPort => signals_of_write inWrite inPort
    simp only [WritePort.signals, List.mem_cons, List.not_mem_nil, or_false] at signals
    simp [WritePlan.circuit, WritePlan.lanes, WritePlan.enable, WritePlan.address, WritePlan.mask,
      WritePlan.data, signals]

theorem mem_registers {circuit : Circuit} (member : circuit ∈ layout.circuits) {lane : Lane}
    (inCircuit : lane ∈ circuit.lanes) {register : String} (inLane : register ∈ lane.registers) :
    register ∈ layout.registers :=
  List.mem_flatMap.mpr ⟨circuit, member, List.mem_flatMap.mpr ⟨lane, inCircuit, inLane⟩⟩

theorem mem_declarations_of_lane {circuit : Circuit} (member : circuit ∈ layout.circuits)
    {lane : Lane} (inCircuit : lane ∈ circuit.lanes) {register : String}
    (inLane : register ∈ lane.registers) :
    .reg lane.source.width register ∈ layout.items.flatMap Item.declared := by
  rw [layout.declarations_items]
  refine List.mem_cons_of_mem _ (List.mem_flatMap.mpr ⟨circuit, member, ?_⟩)
  exact List.mem_append_left _ (List.mem_flatMap.mpr
    ⟨lane, inCircuit, List.mem_map.mpr ⟨register, inLane, rfl⟩⟩)

theorem mem_declarations_of_readWrite {plan : ReadWritePlan} (member : plan ∈ layout.readWrite) :
    .net 1 plan.writes ∈ layout.items.flatMap Item.declared ∧
      .net 1 plan.reads ∈ layout.items.flatMap Item.declared ∧
      .reg layout.storage.width plan.held ∈ layout.items.flatMap Item.declared := by
  have inCircuits : plan.circuit layout.storage ∈ layout.circuits :=
    List.mem_append_left _ (List.mem_append_right _ (List.mem_map.mpr ⟨plan, member, rfl⟩))
  have whole : ∀ declaration ∈ (plan.logic layout.storage).flatMap Item.declared,
      declaration ∈ layout.items.flatMap Item.declared := by
    intro declaration inLogic
    rw [layout.declarations_items]
    exact List.mem_cons_of_mem _ (List.mem_flatMap.mpr
      ⟨_, inCircuits, List.mem_append_right _ inLogic⟩)
  refine ⟨whole _ ?_, whole _ ?_, whole _ ?_⟩ <;> simp [ReadWritePlan.logic, Item.declared]

theorem mem_circuits_of_read {plan : ReadPlan} (member : plan ∈ layout.read) :
    plan.circuit ∈ layout.circuits :=
  List.mem_append_left _ (List.mem_append_left _ (List.mem_map.mpr ⟨plan, member, rfl⟩))

theorem mem_circuits_of_readWrite {plan : ReadWritePlan} (member : plan ∈ layout.readWrite) :
    plan.circuit layout.storage ∈ layout.circuits :=
  List.mem_append_left _ (List.mem_append_right _ (List.mem_map.mpr ⟨plan, member, rfl⟩))

theorem mem_circuits_of_write {plan : WritePlan} (member : plan ∈ layout.write) :
    plan.circuit layout.storage ∈ layout.circuits :=
  List.mem_append_right _ (List.mem_map.mpr ⟨plan, member, rfl⟩)

end Layout

namespace Layout.Describes

variable {layout : Layout} {module : Module} {descriptor : Descriptor}

theorem clock (describes : layout.Describes module descriptor) {circuit : Circuit}
    (member : circuit ∈ layout.circuits) :
    ∃ port ∈ module.inputs, circuit.clock.expr = .ident port.name := by
  obtain ⟨port, given, same⟩ := describes.mem_inputs_of_signals (signals_of_circuit member).1
  exact ⟨port, given, congrArg Signal.expr same⟩

theorem widths_read (describes : layout.Describes module descriptor) {plan : ReadPlan}
    (member : plan ∈ layout.read) : plan.port.clock.width = 1 ∧ plan.port.enable.width = 1 :=
  ReadPort.width_of_sized
    (describes.realizes.sized.read plan.port (List.mem_map.mpr ⟨plan, member, rfl⟩))

theorem widths_readWrite (describes : layout.Describes module descriptor) {plan : ReadWritePlan}
    (member : plan ∈ layout.readWrite) :
    plan.port.clock.width = 1 ∧ plan.port.enable.width = 1 ∧ plan.port.mode.width = 1 ∧
      plan.port.mask.width = 1 ∧ plan.port.data.width = descriptor.dataWidth :=
  ReadWritePort.width_of_sized
    (describes.realizes.sized.readWrite plan.port (List.mem_map.mpr ⟨plan, member, rfl⟩))

theorem widths_write (describes : layout.Describes module descriptor) {plan : WritePlan}
    (member : plan ∈ layout.write) :
    plan.port.clock.width = 1 ∧ plan.port.enable.width = 1 ∧ plan.port.mask.width = 1 ∧
      plan.port.data.width = descriptor.dataWidth :=
  WritePort.width_of_sized
    (describes.realizes.sized.write plan.port (List.mem_map.mpr ⟨plan, member, rfl⟩))

/-- What is declared: the storage, the registers behind inputs, and the nets and the register of
each read-write port. -/
theorem cases_of_mem_declarations (describes : layout.Describes module descriptor)
    {declaration : Declaration} (member : declaration ∈ module.declarations) :
    declaration = .array layout.storage.width layout.storage.depth layout.storage.name ∨
    (∃ circuit ∈ layout.circuits, ∃ lane ∈ circuit.lanes, ∃ register ∈ lane.registers,
      declaration = .reg lane.source.width register) ∨
    ∃ plan ∈ layout.readWrite, declaration = .net 1 plan.writes ∨ declaration = .net 1 plan.reads ∨
      declaration = .reg layout.storage.width plan.held := by
  rw [describes.declarations, layout.declarations_items] at member
  rcases List.mem_cons.mp member with first | inCircuits
  · exact .inl first
  · obtain ⟨circuit, inLayout, declared⟩ := List.mem_flatMap.mp inCircuits
    rcases List.mem_append.mp declared with inLanes | inLogic
    · obtain ⟨lane, inCircuit, inLane⟩ := List.mem_flatMap.mp inLanes
      obtain ⟨register, inRegisters, rfl⟩ := List.mem_map.mp inLane
      exact .inr (.inl ⟨circuit, inLayout, lane, inCircuit, register, inRegisters, rfl⟩)
    · rcases cases_of_mem_circuits inLayout with
        ⟨plan, -, rfl⟩ | ⟨plan, inReadWrite, rfl⟩ | ⟨plan, -, rfl⟩
      · simp [ReadPlan.circuit] at inLogic
      · simp only [ReadWritePlan.circuit, ReadWritePlan.logic, List.flatMap_cons, Item.declared,
          List.flatMap_nil, List.append_nil, List.nil_append, List.cons_append, List.mem_cons,
          List.not_mem_nil, or_false] at inLogic
        exact .inr (.inr ⟨plan, inReadWrite, inLogic⟩)
      · simp [WritePlan.circuit, Item.declared] at inLogic

theorem supported (describes : layout.Describes module descriptor) : module.Supported := by
  refine ⟨fun declaration member => ?_, ?_⟩
  · rcases describes.cases_of_mem_declarations member with
      rfl | ⟨circuit, -, lane, -, register, -, rfl⟩ | ⟨plan, -, rfl | rfl | rfl⟩ <;> exact trivial
  · rw [describes.items]
    have named : ∀ circuit ∈ layout.circuits, ∃ name, circuit.clock.expr = .ident name := by
      intro circuit member
      obtain ⟨port, -, clock⟩ := describes.clock member
      exact ⟨port.name, clock⟩
    refine layout.forall_mem_items trivial ?_ ?_ ?_ ?_
    · intro circuit member lane inCircuit capture captured
      exact ⟨trivial, named circuit member⟩
    · intro plan member item inLogic
      have clockNamed := named _ (mem_circuits_of_readWrite member)
      simp only [ReadWritePlan.logic, List.mem_cons, List.not_mem_nil, or_false] at inLogic
      rcases inLogic with rfl | rfl | rfl | rfl | rfl | rfl | rfl
      · exact trivial
      · simp [Item.Supported]
      · exact trivial
      · simp [Item.Supported]
      · exact trivial
      · exact trivial
      · exact clockNamed
    · intro plan member
      exact named _ (mem_circuits_of_write member)
    · intro assign driven
      obtain ⟨pair, -, rfl⟩ := List.mem_map.mp driven
      exact ⟨pair.1.name, rfl⟩

theorem ofModule (describes : layout.Describes module descriptor) :
    Simulator.ofModule module = .ok (Simulator.elaborated module) :=
  Simulator.ofModule_eq_ok_iff.mpr ⟨describes.supported, rfl⟩

end Layout.Describes
end Multiport.Memory
