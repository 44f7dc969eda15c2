import Multiport.Proofs.Memory.Edges
import Multiport.Proofs.Memory.Naming

/-! What is in a lowered memory, in order. Layouts that agree on the ports, the stages and the names
in order are equal; since the names that are wanted are all free, the layout of a memory with the
ports of its descriptor is known, and with it every declaration and every block. -/
namespace Multiport.Memory

private theorem eq_of_flatMap_eq {Part Key : Type} {key : Part → Key} {names : Part → List String}
    {length : Nat} {first second : List Part}
    (determined : ∀ part ∈ first, ∀ other ∈ second, key part = key other →
      names part = names other → part = other)
    (firstLength : ∀ part ∈ first, (names part).length = length)
    (secondLength : ∀ part ∈ second, (names part).length = length)
    (keys : first.map key = second.map key)
    (same : first.flatMap names = second.flatMap names) : first = second := by
  induction first generalizing second with
  | nil => exact (List.map_eq_nil_iff.mp keys.symm).symm
  | cons part rest ih =>
    cases second with
    | nil => cases keys
    | cons other others =>
      obtain ⟨sameKey, keys⟩ := List.cons.inj keys
      obtain ⟨partLength, firstLength⟩ := List.forall_mem_cons.mp firstLength
      obtain ⟨otherLength, secondLength⟩ := List.forall_mem_cons.mp secondLength
      obtain ⟨sameNames, same⟩ := List.append_inj same (partLength.trans otherLength.symm)
      rw [determined part List.mem_cons_self other List.mem_cons_self sameKey sameNames]
      refine congrArg (other :: ·) (ih ?_ firstLength secondLength keys same)
      exact fun part inRest other inOthers =>
        determined part (List.mem_cons_of_mem _ inRest) other (List.mem_cons_of_mem _ inOthers)

private theorem length_flatMap_of_length {Part : Type} {names : Part → List String} {length : Nat}
    {parts : List Part} (each : ∀ part ∈ parts, (names part).length = length) :
    (parts.flatMap names).length = parts.length * length := by
  induction parts with
  | nil => simp
  | cons part rest ih =>
    obtain ⟨first, others⟩ := List.forall_mem_cons.mp each
    rw [List.flatMap_cons, List.length_append, first, ih others, List.length_cons, Nat.succ_mul,
      Nat.add_comm]

private theorem Staged.eq_of_registers {first second : List Lane} {stages : Nat}
    (firstStaged : Staged first stages) (secondStaged : Staged second stages)
    (sources : first.map Lane.source = second.map Lane.source)
    (registers : first.flatMap Lane.registers = second.flatMap Lane.registers) :
    first = second :=
  eq_of_flatMap_eq (fun ⟨_, _⟩ _ ⟨_, _⟩ _ => by rintro rfl rfl; rfl) firstStaged secondStaged
    sources registers

section

variable {stages : Nat}

def ReadPlan.names (plan : ReadPlan) : List String := plan.lanes.flatMap Lane.registers

def WritePlan.names (plan : WritePlan) : List String := plan.lanes.flatMap Lane.registers

def ReadWritePlan.names (plan : ReadWritePlan) : List String :=
  plan.lanes.flatMap Lane.registers ++ [plan.writes, plan.reads, plan.held]

private theorem ReadPlan.eq_of_names {first second : ReadPlan}
    (firstStaged : Staged first.lanes stages) (secondStaged : Staged second.lanes stages)
    (port : first.port = second.port) (names : first.names = second.names) : first = second := by
  obtain ⟨own, enableNames, addressNames⟩ := first
  obtain rfl : own = second.port := port
  have same := firstStaged.eq_of_registers secondStaged rfl names
  simp only [lanes, enable, address, List.cons.injEq, Lane.mk.injEq, true_and, and_true] at same
  obtain ⟨rfl, rfl⟩ := same
  rfl

private theorem WritePlan.eq_of_names {first second : WritePlan}
    (firstStaged : Staged first.lanes stages) (secondStaged : Staged second.lanes stages)
    (port : first.port = second.port) (names : first.names = second.names) : first = second := by
  obtain ⟨own, enableNames, addressNames, maskNames, dataNames⟩ := first
  obtain rfl : own = second.port := port
  have same := firstStaged.eq_of_registers secondStaged rfl names
  simp only [lanes, enable, address, mask, data, List.cons.injEq, Lane.mk.injEq, true_and,
    and_true] at same
  obtain ⟨rfl, rfl, rfl, rfl⟩ := same
  rfl

private theorem ReadWritePlan.eq_of_names {first second : ReadWritePlan}
    (firstStaged : Staged first.lanes stages) (secondStaged : Staged second.lanes stages)
    (port : first.port = second.port) (names : first.names = second.names) : first = second := by
  obtain ⟨own, enableNames, addressNames, modeNames, maskNames, dataNames, writes, reads, held⟩ :=
    first
  obtain rfl : own = second.port := port
  obtain ⟨registers, logic⟩ := List.append_inj' names rfl
  have same := firstStaged.eq_of_registers secondStaged rfl registers
  simp only [lanes, enable, address, mode, mask, data, List.cons.injEq, Lane.mk.injEq, true_and,
    and_true] at same logic
  obtain ⟨rfl, rfl, rfl, rfl, rfl⟩ := same
  obtain ⟨rfl, rfl, rfl⟩ := logic
  rfl

private theorem ReadPlan.length_names {plan : ReadPlan} (staged : Staged plan.lanes stages) :
    plan.names.length = 2 * stages := length_flatMap_of_length staged

private theorem WritePlan.length_names {plan : WritePlan} (staged : Staged plan.lanes stages) :
    plan.names.length = 4 * stages := length_flatMap_of_length staged

private theorem ReadWritePlan.length_names {plan : ReadWritePlan}
    (staged : Staged plan.lanes stages) : plan.names.length = 5 * stages + 3 := by
  have lanes : (plan.lanes.flatMap Lane.registers).length = 5 * stages :=
    length_flatMap_of_length staged
  rw [names, List.length_append, lanes]
  rfl

end

namespace Layout

/-- The names in a layout, in the order in which they are declared. -/
def names (layout : Layout) : List String :=
  layout.storage.name :: (layout.read.flatMap ReadPlan.names ++
    layout.readWrite.flatMap ReadWritePlan.names ++ layout.write.flatMap WritePlan.names)

theorem map_name_items (layout : Layout) :
    (layout.items.flatMap Item.declared).map Declaration.name = layout.names := by
  have lanes (lanes : List Lane) :
      (lanes.flatMap Lane.declarations).map Declaration.name = lanes.flatMap Lane.registers := by
    simp [List.map_flatMap, Lane.declarations, Declaration.reg, Function.comp_def]
  rw [declarations_items, List.map_cons, circuits, names]
  simp only [List.flatMap_append, List.flatMap_map, List.map_append, List.map_flatMap,
    Circuit.declarations, lanes]
  simp [ReadPlan.circuit, ReadWritePlan.circuit, WritePlan.circuit, ReadWritePlan.logic,
    Item.declared, Declaration.array, Declaration.reg, Declaration.net]
  rfl

private theorem length_flatMap_eq {Plan Port : Type} {port : Plan → Port}
    {names : Plan → List String} {length : Nat} {first second : List Plan}
    (ports : first.map port = second.map port)
    (firstLength : ∀ plan ∈ first, (names plan).length = length)
    (secondLength : ∀ plan ∈ second, (names plan).length = length) :
    (first.flatMap names).length = (second.flatMap names).length := by
  have count := congrArg List.length ports
  rw [List.length_map, List.length_map] at count
  rw [length_flatMap_of_length firstLength, length_flatMap_of_length secondLength, count]

/-- Layouts for one descriptor with the same ports are equal if they declare the same names. -/
theorem eq_of_names {first second : Layout} {descriptor : Descriptor}
    (firstRealizes : first.Realizes descriptor) (secondRealizes : second.Realizes descriptor)
    (ports : first.ports = second.ports) (interface : first.interface = second.interface)
    (names : first.names = second.names) : first = second := by
  obtain ⟨reads, readWrites, writes⟩ := Interface.mk.inj interface
  obtain ⟨storageName, parts⟩ := List.cons.inj names
  -- The names of each kind have one length in both layouts, so they are equal kind by kind.
  have firstRead := fun plan member => ReadPlan.length_names (firstRealizes.read plan member)
  have secondRead := fun plan member => ReadPlan.length_names (secondRealizes.read plan member)
  have firstReadWrite := fun plan member =>
    ReadWritePlan.length_names (firstRealizes.readWrite plan member)
  have secondReadWrite := fun plan member =>
    ReadWritePlan.length_names (secondRealizes.readWrite plan member)
  have firstWrite := fun plan member => WritePlan.length_names (firstRealizes.write plan member)
  have secondWrite := fun plan member => WritePlan.length_names (secondRealizes.write plan member)
  have readLength := length_flatMap_eq reads firstRead secondRead
  have readWriteLength := length_flatMap_eq readWrites firstReadWrite secondReadWrite
  obtain ⟨front, writeNames⟩ := List.append_inj parts
    (by rw [List.length_append, List.length_append, readLength, readWriteLength])
  obtain ⟨readNames, readWriteNames⟩ := List.append_inj front readLength
  have read := eq_of_flatMap_eq (fun plan member other inOther => ReadPlan.eq_of_names
    (firstRealizes.read plan member) (secondRealizes.read other inOther)) firstRead secondRead
    reads readNames
  have readWrite := eq_of_flatMap_eq (fun plan member other inOther => ReadWritePlan.eq_of_names
    (firstRealizes.readWrite plan member) (secondRealizes.readWrite other inOther)) firstReadWrite
    secondReadWrite readWrites readWriteNames
  have write := eq_of_flatMap_eq (fun plan member other inOther => WritePlan.eq_of_names
    (firstRealizes.write plan member) (secondRealizes.write other inOther)) firstWrite secondWrite
    writes writeNames
  have storage : first.storage = second.storage := by
    rw [Storage.mk.injEq]
    exact ⟨storageName, firstRealizes.width.trans secondRealizes.width.symm,
      firstRealizes.depth.trans secondRealizes.depth.symm⟩
  rw [Layout.mk.injEq]
  exact ⟨ports, storage, read, readWrite, write⟩

end Layout

namespace Descriptor

variable (descriptor : Descriptor)

/-- The registers behind an input of a port, as they are named when every name is free. -/
def registerNames (kind : PortKind) (index : Nat) (input : String) : List String :=
  (List.range (descriptor.stages kind)).map fun stage =>
    kind.signalName index (stageField input stage)

def readPlan (index : Nat) : ReadPlan :=
  let names := descriptor.registerNames .read index
  ⟨descriptor.readPort index, names "en", names "addr"⟩

def writePlan (index : Nat) : WritePlan :=
  let names := descriptor.registerNames .write index
  ⟨descriptor.writePort index, names "en", names "addr", names "mask", names "data"⟩

def readWritePlan (index : Nat) : ReadWritePlan :=
  let names := descriptor.registerNames .readWrite index
  let name := PortKind.readWrite.signalName index
  ⟨descriptor.readWritePort index, names "en", names "addr", names "wmode", names "wmask",
    names "wdata", name "wcond", name "rcond", name "rdata_hold"⟩

/-- The layout of a memory with the ports of its descriptor, when every name is free. -/
def layout : Layout where
  ports := descriptor.ports
  storage := ⟨LoweringOptions.standard.storageName, descriptor.dataWidth, descriptor.depth⟩
  read := (List.range descriptor.readPorts).map descriptor.readPlan
  readWrite := (List.range descriptor.readWritePorts).map descriptor.readWritePlan
  write := (List.range descriptor.writePorts).map descriptor.writePlan

theorem interface_layout : descriptor.layout.interface = descriptor.interface := by
  simp only [Layout.interface, layout, interface, List.map_map]
  rfl

private theorem names_readPlan (index : Nat) :
    (descriptor.readPlan index).names =
      (PortKind.read.stagedFields (descriptor.stages .read) ++ PortKind.read.logicFields).map
        (PortKind.read.signalName index) := by
  simp [ReadPlan.names, ReadPlan.lanes, ReadPlan.enable, ReadPlan.address, readPlan,
    registerNames, PortKind.stagedFields, PortKind.inputs, PortKind.logicFields, Function.comp_def]

private theorem names_writePlan (index : Nat) :
    (descriptor.writePlan index).names =
      (PortKind.write.stagedFields (descriptor.stages .write) ++ PortKind.write.logicFields).map
        (PortKind.write.signalName index) := by
  simp [WritePlan.names, WritePlan.lanes, WritePlan.enable, WritePlan.address, WritePlan.mask,
    WritePlan.data, writePlan, registerNames, PortKind.stagedFields, PortKind.inputs,
    PortKind.logicFields, Function.comp_def]

private theorem names_readWritePlan (index : Nat) :
    (descriptor.readWritePlan index).names =
      (PortKind.readWrite.stagedFields (descriptor.stages .readWrite) ++
        PortKind.readWrite.logicFields).map (PortKind.readWrite.signalName index) := by
  simp [ReadWritePlan.names, ReadWritePlan.lanes, ReadWritePlan.enable, ReadWritePlan.address,
    ReadWritePlan.mode, ReadWritePlan.mask, ReadWritePlan.data, readWritePlan, registerNames,
    PortKind.stagedFields, PortKind.inputs, PortKind.logicFields, Function.comp_def]

theorem names_layout : descriptor.layout.names = loweringNames .top descriptor .standard := by
  simp only [loweringNames_eq, fieldNames, eachPort, kindOrder, List.flatMap_cons, List.flatMap_nil,
    List.append_nil, ← names_readPlan, ← names_writePlan, ← names_readWritePlan, Layout.names,
    layout, List.flatMap_map, List.append_assoc]
  rfl

private theorem staged_registerNames (kind : PortKind) (index : Nat) (input : String) :
    (descriptor.registerNames kind index input).length = descriptor.stages kind := by
  simp [registerNames]

theorem realizes_layout : descriptor.layout.Realizes descriptor where
  width := rfl
  depth := rfl
  groups := by
    rw [interface_layout, show descriptor.layout.inputs = _ from descriptor.inputs_eq]
    exact descriptor.groups_interface
  sized := by
    rw [interface_layout]
    exact descriptor.sized_interface
  read plan member := by
    obtain ⟨index, -, rfl⟩ := List.mem_map.mp member
    simp [Staged, ReadPlan.lanes, ReadPlan.enable, ReadPlan.address, readPlan,
      staged_registerNames, stages, readStages]
  readWrite plan member := by
    obtain ⟨index, -, rfl⟩ := List.mem_map.mp member
    simp [Staged, ReadWritePlan.lanes, ReadWritePlan.enable, ReadWritePlan.address,
      ReadWritePlan.mode, ReadWritePlan.mask, ReadWritePlan.data, readWritePlan,
      staged_registerNames, stages, getD_readWriteStages?]
  write plan member := by
    obtain ⟨index, -, rfl⟩ := List.mem_map.mp member
    simp [Staged, WritePlan.lanes, WritePlan.enable, WritePlan.address, WritePlan.mask,
      WritePlan.data, writePlan, staged_registerNames, stages, getD_writeStages?]
  outputCount := by
    rw [show descriptor.layout.outputs = _ from descriptor.outputs_eq]
    simp [outputCount]
  outputWidth port member := by
    rw [show descriptor.layout.outputs = _ from descriptor.outputs_eq] at member
    rcases List.mem_append.mp member with shown | held
    · obtain ⟨index, -, rfl⟩ := List.mem_map.mp shown
      rfl
    · obtain ⟨index, -, rfl⟩ := List.mem_map.mp held
      rfl

/-- With the ports of the descriptor, in no scope and with the standard options, a memory has the
items of the layout in which every name is free. -/
theorem lower_ports (name : String) (valid : descriptor.validate = .ok ()) :
    ∃ module, lower .top name descriptor.ports descriptor .standard = .ok module ∧
      module.ports = descriptor.ports ∧ module.items = descriptor.layout.items := by
  obtain ⟨layout, module, lowered, -, modulePorts, items, ports, interface, realizes, declared⟩ :=
    lower_of_checks .top .standard valid (descriptor.ofSignals_ports name)
      (descriptor.checkOutputs_ports name)
  have names : layout.names = descriptor.layout.names := by
    rw [← layout.map_name_items, declared, freshNames_loweringNames, names_layout]
  have same : layout = descriptor.layout := Layout.eq_of_names realizes descriptor.realizes_layout
    ports (interface.trans descriptor.interface_layout.symm) names
  exact ⟨module, lowered, modulePorts.trans ports, same ▸ items⟩

end Descriptor

/-- The registers that delay a signal of a width, each named by the signal and its place. -/
def chainRegisters (input : String) (width stages : Nat) : List Declaration :=
  (List.range stages).map fun stage => .reg width (input ++ "_d" ++ toString stage)

/-- What stands behind a number of registers that delay a signal. -/
def chainEnd (input : String) (stages : Nat) : Expr :=
  .ident (if stages = 0 then input else input ++ "_d" ++ toString (stages - 1))

/-- The blocks of the registers that delay a signal: each captures what stands before it. -/
def chainBlocks (clock input : String) (stages : Nat) : List (Event × List Statement) :=
  (List.range stages).map fun stage =>
    (.posedge (.ident clock),
      [.nonblocking (.ident (input ++ "_d" ++ toString stage)) (chainEnd input stage)])

namespace Lane

theorem blocks_items (lane : Lane) (clock : Expr) :
    (lane.items clock).filterMap Item.block? =
      lane.captures.map fun capture => (.posedge clock, captureBody capture) := by
  simp [items, List.filterMap_flatMap, Item.block?, List.filterMap_cons, ← List.map_eq_flatMap]

/-- The lane behind a named signal whose registers are named by their places. -/
def chain (input : String) (width stages : Nat) : Lane :=
  ⟨.ident input width, (List.range stages).map fun stage => input ++ "_d" ++ toString stage⟩

theorem declarations_chain (input : String) (width stages : Nat) :
    (chain input width stages).declarations = chainRegisters input width stages := by
  simp [declarations, chain, chainRegisters, Signal.ident]

theorem output_chain (input : String) (width stages : Nat) :
    (chain input width stages).output = ⟨chainEnd input stages, width⟩ := by
  cases stages with
  | zero => rfl
  | succ stages => simp [output, chain, chainEnd, List.range_succ, Signal.ident]

theorem captures_chain (input : String) (width stages : Nat) :
    (chain input width stages).captures = (List.range stages).map fun stage =>
      (input ++ "_d" ++ toString stage, chainEnd input stage) := by
  induction stages with
  | zero => rfl
  | succ stages ih =>
    have last := congrArg Signal.expr (output_chain input width stages)
    simp only [captures, chain, output] at ih last ⊢
    rw [List.range_succ, List.map_append, List.map_append, List.map_cons, List.map_nil,
      capturesFrom_concat, ih, last]
    rfl

theorem blocks_chain (clock input : String) (width stages : Nat) :
    ((chain input width stages).items (.ident clock)).filterMap Item.block? =
      chainBlocks clock input stages := by
  simp [blocks_items, captures_chain, captureBody, chainBlocks]

end Lane

namespace Descriptor

variable (descriptor : Descriptor)

def readDeclarations (index : Nat) : List Declaration :=
  let port := "R" ++ toString index
  let stages := descriptor.readLatency
  chainRegisters (port ++ "_en") 1 stages ++
    chainRegisters (port ++ "_addr") (addressWidth descriptor.depth) stages

/-- What is declared for a read-write port, by its place. -/
def readWriteDeclarations (index : Nat) : List Declaration :=
  let port := "RW" ++ toString index
  let stages := max descriptor.readLatency descriptor.writeLatency - 1
  chainRegisters (port ++ "_en") 1 stages ++
    chainRegisters (port ++ "_addr") (addressWidth descriptor.depth) stages ++
    chainRegisters (port ++ "_wmode") 1 stages ++ chainRegisters (port ++ "_wmask") 1 stages ++
    chainRegisters (port ++ "_wdata") descriptor.dataWidth stages ++
    [.net 1 (port ++ "_wcond"), .net 1 (port ++ "_rcond"),
      .reg descriptor.dataWidth (port ++ "_rdata_hold")]

def writeDeclarations (index : Nat) : List Declaration :=
  let port := "W" ++ toString index
  let stages := descriptor.writeLatency - 1
  chainRegisters (port ++ "_en") 1 stages ++
    chainRegisters (port ++ "_addr") (addressWidth descriptor.depth) stages ++
    chainRegisters (port ++ "_mask") 1 stages ++
    chainRegisters (port ++ "_data") descriptor.dataWidth stages

def readBlocks (index : Nat) : List (Event × List Statement) :=
  let port := "R" ++ toString index
  ["_en", "_addr"].flatMap fun input =>
    chainBlocks (port ++ "_clk") (port ++ input) descriptor.readLatency

/-- The blocks of a read-write port, by its place: the captures, the block that settles what is
read, and the block that writes. -/
def readWriteBlocks (index : Nat) : List (Event × List Statement) :=
  let port := "RW" ++ toString index
  let stages := max descriptor.readLatency descriptor.writeLatency - 1
  let held : Expr := .ident (port ++ "_rdata_hold")
  let word : Expr := .word "Memory" (chainEnd (port ++ "_addr") stages)
  (["_en", "_addr", "_wmode", "_wmask", "_wdata"].flatMap fun input =>
      chainBlocks (port ++ "_clk") (port ++ input) stages) ++
    [(.anyChange,
        [.blocking held (.x descriptor.dataWidth),
          .cond (.ident (port ++ "_wcond")) []
            [.cond (.ident (port ++ "_rcond")) [.blocking held word] []]]),
      (.posedge (.ident (port ++ "_clk")),
        [.cond (.ident (port ++ "_wcond"))
          [.nonblocking word (chainEnd (port ++ "_wdata") stages)] []])]

/-- The blocks of a write port, by its place: the captures and the block that writes. -/
def writeBlocks (index : Nat) : List (Event × List Statement) :=
  let port := "W" ++ toString index
  let stages := descriptor.writeLatency - 1
  let behind (input : String) := chainEnd (port ++ input) stages
  (["_en", "_addr", "_mask", "_data"].flatMap fun input =>
      chainBlocks (port ++ "_clk") (port ++ input) stages) ++
    [(.posedge (.ident (port ++ "_clk")),
      [.cond (.combine .and (behind "_en") (behind "_mask"))
        [.nonblocking (.word "Memory" (behind "_addr")) (behind "_data")] []])]

private theorem lane_eq (kind : PortKind) (index : Nat) (role : InputRole) (input : String) :
    Lane.mk (descriptor.portSignal kind index ⟨role, input⟩)
        (descriptor.registerNames kind index input) =
      .chain (kind.letters ++ toString index ++ ("_" ++ input)) (descriptor.inputWidth role)
        (descriptor.stages kind) := by
  simp [Lane.chain, portSignal, registerNames, signalName_eq, stageField, String.append_assoc]

private theorem lanes_readPlan (index : Nat) :
    let port := "R" ++ toString index
    let stages := descriptor.readLatency
    (descriptor.readPlan index).lanes =
      [.chain (port ++ "_en") 1 stages,
        .chain (port ++ "_addr") (addressWidth descriptor.depth) stages] := by
  simp only [ReadPlan.lanes, ReadPlan.enable, ReadPlan.address, readPlan, readPort, lane_eq]
  rfl

private theorem lanes_writePlan (index : Nat) :
    let port := "W" ++ toString index
    let stages := descriptor.writeLatency - 1
    (descriptor.writePlan index).lanes =
      [.chain (port ++ "_en") 1 stages,
        .chain (port ++ "_addr") (addressWidth descriptor.depth) stages,
        .chain (port ++ "_mask") 1 stages,
        .chain (port ++ "_data") descriptor.dataWidth stages] := by
  simp only [WritePlan.lanes, WritePlan.enable, WritePlan.address, WritePlan.mask, WritePlan.data,
    writePlan, writePort, lane_eq]
  rfl

private theorem lanes_readWritePlan (index : Nat) :
    let port := "RW" ++ toString index
    let stages := max descriptor.readLatency descriptor.writeLatency - 1
    (descriptor.readWritePlan index).lanes =
      [.chain (port ++ "_en") 1 stages,
        .chain (port ++ "_addr") (addressWidth descriptor.depth) stages,
        .chain (port ++ "_wmode") 1 stages, .chain (port ++ "_wmask") 1 stages,
        .chain (port ++ "_wdata") descriptor.dataWidth stages] := by
  simp only [ReadWritePlan.lanes, ReadWritePlan.enable, ReadWritePlan.address, ReadWritePlan.mode,
    ReadWritePlan.mask, ReadWritePlan.data, readWritePlan, readWritePort, lane_eq]
  rfl

private theorem writes_readWritePlan (index : Nat) :
    (descriptor.readWritePlan index).writes = "RW" ++ toString index ++ "_wcond" :=
  signalName_eq .readWrite index "wcond"

private theorem reads_readWritePlan (index : Nat) :
    (descriptor.readWritePlan index).reads = "RW" ++ toString index ++ "_rcond" :=
  signalName_eq .readWrite index "rcond"

private theorem held_readWritePlan (index : Nat) :
    (descriptor.readWritePlan index).held = "RW" ++ toString index ++ "_rdata_hold" :=
  signalName_eq .readWrite index "rdata_hold"

private theorem declarations_readPlan (index : Nat) :
    (descriptor.readPlan index).circuit.declarations = descriptor.readDeclarations index := by
  simp only [Circuit.declarations, ReadPlan.circuit, lanes_readPlan, List.flatMap_cons,
    List.flatMap_nil, Lane.declarations_chain, List.append_nil, readDeclarations]

private theorem declarations_writePlan (index : Nat) :
    ((descriptor.writePlan index).circuit descriptor.layout.storage).declarations =
      descriptor.writeDeclarations index := by
  simp only [Circuit.declarations, WritePlan.circuit, lanes_writePlan, List.flatMap_cons,
    List.flatMap_nil, Lane.declarations_chain, List.append_nil, Item.declared, writeDeclarations,
    List.append_assoc]

private theorem declarations_readWritePlan (index : Nat) :
    ((descriptor.readWritePlan index).circuit descriptor.layout.storage).declarations =
      descriptor.readWriteDeclarations index := by
  simp only [Circuit.declarations, ReadWritePlan.circuit, ReadWritePlan.logic, lanes_readWritePlan,
    List.flatMap_cons, List.flatMap_nil, Lane.declarations_chain, List.append_nil, Item.declared,
    readWriteDeclarations, List.append_assoc, writes_readWritePlan, reads_readWritePlan,
    held_readWritePlan]
  rfl

private theorem blocks_readPlan (index : Nat) :
    (descriptor.readPlan index).circuit.items.filterMap Item.block? =
      descriptor.readBlocks index := by
  have clock : (descriptor.readPlan index).port.clock.expr =
      .ident ("R" ++ toString index ++ "_clk") :=
    congrArg Expr.ident (signalName_eq .read index "clk")
  simp only [Circuit.items, ReadPlan.circuit, lanes_readPlan, clock, List.flatMap_cons,
    List.flatMap_nil, List.filterMap_append, Lane.blocks_chain, List.append_nil, readBlocks]

private theorem blocks_writePlan (index : Nat) :
    ((descriptor.writePlan index).circuit descriptor.layout.storage).items.filterMap Item.block? =
      descriptor.writeBlocks index := by
  have clock : (descriptor.writePlan index).port.clock.expr =
      .ident ("W" ++ toString index ++ "_clk") :=
    congrArg Expr.ident (signalName_eq .write index "clk")
  have enable : (descriptor.writePlan index).enable = _ :=
    descriptor.lane_eq .write index .enable "en"
  have address : (descriptor.writePlan index).address = _ :=
    descriptor.lane_eq .write index .address "addr"
  have mask : (descriptor.writePlan index).mask = _ :=
    descriptor.lane_eq .write index .writeMask "mask"
  have data : (descriptor.writePlan index).data = _ :=
    descriptor.lane_eq .write index .writeData "data"
  simp only [Circuit.items, WritePlan.circuit, lanes_writePlan, clock, List.flatMap_cons,
    List.flatMap_nil, List.filterMap_append, Lane.blocks_chain, List.append_nil, WritePlan.store,
    WritePlan.condition, enable, address, mask, data, Lane.output_chain, writeBlocks]
  rfl

private theorem blocks_readWritePlan (index : Nat) :
    ((descriptor.readWritePlan index).circuit descriptor.layout.storage).items.filterMap
      Item.block? = descriptor.readWriteBlocks index := by
  have clock : (descriptor.readWritePlan index).port.clock.expr =
      .ident ("RW" ++ toString index ++ "_clk") :=
    congrArg Expr.ident (signalName_eq .readWrite index "clk")
  have address : (descriptor.readWritePlan index).address = _ :=
    descriptor.lane_eq .readWrite index .address "addr"
  have data : (descriptor.readWritePlan index).data = _ :=
    descriptor.lane_eq .readWrite index .writeData "wdata"
  simp only [Circuit.items, ReadWritePlan.circuit, ReadWritePlan.logic, lanes_readWritePlan, clock,
    List.flatMap_cons, List.flatMap_nil, List.filterMap_append, Lane.blocks_chain, List.append_nil,
    ReadWritePlan.settle, ReadWritePlan.store, writes_readWritePlan, reads_readWritePlan,
    held_readWritePlan, Storage.slot, address, data, Lane.output_chain, readWriteBlocks]
  rfl

private theorem circuits_layout :
    descriptor.layout.circuits =
      (List.range descriptor.readPorts).map (fun index => (descriptor.readPlan index).circuit) ++
        (List.range descriptor.readWritePorts).map (fun index =>
          (descriptor.readWritePlan index).circuit descriptor.layout.storage) ++
        (List.range descriptor.writePorts).map fun index =>
          (descriptor.writePlan index).circuit descriptor.layout.storage := by
  simp [Layout.circuits, layout, Function.comp_def]

private theorem flatMap_circuits {Part : Type} {collect : Circuit → List Part}
    {read readWrite write : Nat → List Part}
    (readCollects : ∀ index, collect (descriptor.readPlan index).circuit = read index)
    (readWriteCollects : ∀ index, collect
      ((descriptor.readWritePlan index).circuit descriptor.layout.storage) = readWrite index)
    (writeCollects : ∀ index, collect
      ((descriptor.writePlan index).circuit descriptor.layout.storage) = write index) :
    descriptor.layout.circuits.flatMap collect =
      (List.range descriptor.readPorts).flatMap read ++
        (List.range descriptor.readWritePorts).flatMap readWrite ++
        (List.range descriptor.writePorts).flatMap write := by
  rw [circuits_layout, List.flatMap_append, List.flatMap_append, List.flatMap_map,
    List.flatMap_map, List.flatMap_map, funext readCollects, funext readWriteCollects,
    funext writeCollects]

private theorem blocks_items (layout : Layout) :
    layout.items.filterMap Item.block? =
      layout.circuits.flatMap fun circuit => circuit.items.filterMap Item.block? := by
  have parts : layout.items.flatMap (fun item => item.block?.toList) = _ :=
    layout.flatMap_items rfl
  simp only [List.filterMap_eq_flatMap_toList, parts]
  exact List.append_nil _

/-- With the ports of the descriptor, in no scope and with the standard options, a memory declares
and runs just what is written here, under names that are the wanted ones. -/
theorem lowered_inventory (name : String) (valid : descriptor.validate = .ok ()) :
    ∃ module, lower .top name descriptor.ports descriptor .standard = .ok module ∧
      module.declarations.map Declaration.name = loweringNames .top descriptor .standard ∧
      module.declarations = .array descriptor.dataWidth descriptor.depth "Memory" ::
        ((List.range descriptor.readPorts).flatMap descriptor.readDeclarations ++
          (List.range descriptor.readWritePorts).flatMap descriptor.readWriteDeclarations ++
          (List.range descriptor.writePorts).flatMap descriptor.writeDeclarations) ∧
      module.blocks =
        (List.range descriptor.readPorts).flatMap descriptor.readBlocks ++
          (List.range descriptor.readWritePorts).flatMap descriptor.readWriteBlocks ++
          (List.range descriptor.writePorts).flatMap descriptor.writeBlocks := by
  obtain ⟨module, lowered, -, items⟩ := descriptor.lower_ports name valid
  refine ⟨module, lowered, ?_, ?_, ?_⟩
  · rw [Module.declarations, items, Layout.map_name_items, names_layout]
  · rw [Module.declarations, items, Layout.declarations_items, flatMap_circuits descriptor
      descriptor.declarations_readPlan descriptor.declarations_readWritePlan
      descriptor.declarations_writePlan]
    rfl
  · rw [Module.blocks, items, blocks_items, flatMap_circuits descriptor
      descriptor.blocks_readPlan descriptor.blocks_readWritePlan descriptor.blocks_writePlan]

/-- With one port of each kind, a read latency of one edge and a write latency of two, every input
but the clocks passes one register. -/
theorem lowered_inventory_threePorts :
    threePorts.validate = .ok () ∧
      ∃ module, lower .top "memory" threePorts.ports threePorts .standard = .ok module ∧
        module.declarations =
          [.array 4 5 "Memory", .reg 1 "R0_en_d0", .reg 3 "R0_addr_d0",
            .reg 1 "RW0_en_d0", .reg 3 "RW0_addr_d0", .reg 1 "RW0_wmode_d0", .reg 1 "RW0_wmask_d0",
            .reg 4 "RW0_wdata_d0", .net 1 "RW0_wcond", .net 1 "RW0_rcond",
            .reg 4 "RW0_rdata_hold",
            .reg 1 "W0_en_d0", .reg 3 "W0_addr_d0", .reg 1 "W0_mask_d0", .reg 4 "W0_data_d0"] ∧
        module.blocks.length = 14 := by
  have valid : threePorts.validate = .ok () := rfl
  obtain ⟨module, lowered, -, declarations, blocks⟩ := threePorts.lowered_inventory "memory" valid
  refine ⟨valid, module, lowered, declarations.trans ?_, (congrArg List.length blocks).trans ?_⟩
  · decide +kernel
  · rfl

end Descriptor
end Multiport.Memory
