import Multiport.Proofs.Memory.Description
import Multiport.Proofs.Text.Words

namespace Multiport.Memory

open Text (append_inj_of_forall isDigit_of_mem_toDigits)

namespace PortKind

def signalName (kind : PortKind) (index : Nat) (field : String) : String :=
  kind.portName index ++ "_" ++ field

private theorem toList_signalName (kind : PortKind) (index : Nat) (field : String) :
    (kind.signalName index field).toList =
      kind.letters.toList ++ (Nat.toDigits 10 index ++ '_' :: field.toList) := by
  simp [signalName, portName]

private theorem head?_number (number : Nat) (rest : List Char) :
    (Nat.toDigits 10 number ++ rest).head?.all (fun char => !!char.isDigit) = true := by
  cases list : Nat.toDigits 10 number with
  | nil => exact absurd list Nat.toDigits_ne_nil
  | cons char digits => simp [isDigit_of_mem_toDigits char (list ▸ List.mem_cons_self)]

private theorem all_letters (kind : PortKind) :
    kind.letters.toList.all (fun char => !char.isDigit) = true := by
  cases kind <;> decide

private theorem letters_injective {kind other : PortKind}
    (same : kind.letters.toList = other.letters.toList) : kind = other := by
  revert same
  cases kind <;> cases other <;> decide

/-- A name tells what kind of port it belongs to, which port of the kind, and what it is for. -/
@[simp] theorem signalName_inj {kind other : PortKind} {index place : Nat} {field input : String} :
    kind.signalName index field = other.signalName place input ↔
      kind = other ∧ index = place ∧ field = input := by
  refine ⟨fun same => ?_, fun ⟨kinds, places, fields⟩ => by rw [kinds, places, fields]⟩
  have texts := congrArg String.toList same
  rw [toList_signalName, toList_signalName] at texts
  obtain ⟨letters, numbered⟩ := append_inj_of_forall (List.all_eq_true.mp (all_letters kind))
    (List.all_eq_true.mp (all_letters other)) (head?_number index _) (head?_number place _) texts
  obtain ⟨digits, fields⟩ := append_inj_of_forall isDigit_of_mem_toDigits isDigit_of_mem_toDigits
    rfl rfl numbered
  refine ⟨letters_injective letters, ?_, String.toList_inj.mp (List.cons.inj fields).2⟩
  apply toString_nat_injective
  rw [Nat.toString_eq_ofList_toDigits, Nat.toString_eq_ofList_toDigits, digits]

end PortKind

namespace Descriptor

variable (descriptor : Descriptor)

/-- What there is for each port of each kind, in order. -/
def eachPort {α : Type} (part : PortKind → Nat → List α) : List α :=
  kindOrder.flatMap fun kind => (List.range (descriptor.count kind)).flatMap (part kind)

theorem ports_eq :
    descriptor.ports =
      descriptor.eachPort descriptor.portInputs ++ descriptor.eachPort descriptor.portOutputs := rfl

/-- The signals of the ports have distinct names if those of one port do. -/
theorem nodup_eachPort {fields : PortKind → List String}
    (distinct : ∀ kind, (fields kind).Nodup) :
    (descriptor.eachPort fun kind index => (fields kind).map (kind.signalName index)).Nodup := by
  refine List.nodup_flatMap.mpr ⟨fun kind _ => List.nodup_flatMap.mpr ⟨fun index _ => ?_, ?_⟩, ?_⟩
  · exact (distinct kind).map fun first second same => (PortKind.signalName_inj.mp same).2.2
  · refine List.nodup_range.imp fun apart => ?_
    intro name inFirst inSecond
    obtain ⟨first, -, rfl⟩ := List.mem_map.mp inFirst
    obtain ⟨second, -, same⟩ := List.mem_map.mp inSecond
    exact apart (PortKind.signalName_inj.mp same).2.1.symm
  · have kinds : kindOrder.Nodup := by decide
    refine kinds.imp fun apart => ?_
    intro name inFirst inSecond
    obtain ⟨index, -, first⟩ := List.mem_flatMap.mp inFirst
    obtain ⟨place, -, second⟩ := List.mem_flatMap.mp inSecond
    obtain ⟨field, -, rfl⟩ := List.mem_map.mp first
    obtain ⟨input, -, same⟩ := List.mem_map.mp second
    exact apart (PortKind.signalName_inj.mp same).1.symm

theorem map_name_ports :
    descriptor.ports.map Port.name =
      (descriptor.eachPort fun kind index =>
        (kind.inputs.map PortInput.name).map (kind.signalName index)) ++
      descriptor.eachPort fun kind index =>
        kind.outputName?.toList.map (kind.signalName index) := by
  simp only [ports_eq, List.map_append, eachPort, List.map_flatMap, portInputs, portOutputs,
    List.map_map]
  rfl

theorem nodup_names : (descriptor.ports.map Port.name).Nodup := by
  rw [map_name_ports]
  refine List.nodup_append.mpr ⟨descriptor.nodup_eachPort ?_, descriptor.nodup_eachPort ?_, ?_⟩
  · intro kind
    cases kind <;> decide
  · intro kind
    cases kind <;> decide
  · intro name inInputs other inOutputs same
    obtain ⟨kind, -, inInputs⟩ := List.mem_flatMap.mp inInputs
    obtain ⟨index, -, inInputs⟩ := List.mem_flatMap.mp inInputs
    obtain ⟨field, inFields, rfl⟩ := List.mem_map.mp inInputs
    obtain ⟨owner, -, inOutputs⟩ := List.mem_flatMap.mp inOutputs
    obtain ⟨place, -, inOutputs⟩ := List.mem_flatMap.mp inOutputs
    obtain ⟨shown, inShown, rfl⟩ := List.mem_map.mp inOutputs
    obtain ⟨rfl, -, rfl⟩ := PortKind.signalName_inj.mp same
    have apart : ∀ kind : PortKind, ∀ field ∈ kind.inputs.map PortInput.name,
        field ∉ kind.outputName?.toList := by
      intro kind
      cases kind <;> decide
    exact apart kind field inFields inShown

def portSignal (kind : PortKind) (index : Nat) (input : PortInput) : Signal :=
  .ident (kind.signalName index input.name) (descriptor.inputWidth input.role)

def readPort (index : Nat) : ReadPort :=
  let signal := descriptor.portSignal .read index
  ⟨signal ⟨.clock, "clk"⟩, signal ⟨.enable, "en"⟩, signal ⟨.address, "addr"⟩⟩

def readWritePort (index : Nat) : ReadWritePort :=
  let signal := descriptor.portSignal .readWrite index
  ⟨signal ⟨.clock, "clk"⟩, signal ⟨.enable, "en"⟩, signal ⟨.address, "addr"⟩,
    signal ⟨.writeMode, "wmode"⟩, signal ⟨.writeMask, "wmask"⟩, signal ⟨.writeData, "wdata"⟩⟩

def writePort (index : Nat) : WritePort :=
  let signal := descriptor.portSignal .write index
  ⟨signal ⟨.clock, "clk"⟩, signal ⟨.enable, "en"⟩, signal ⟨.address, "addr"⟩,
    signal ⟨.writeMask, "mask"⟩, signal ⟨.writeData, "data"⟩⟩

/-- The ports of the memory when its inputs are those that the descriptor describes. -/
def interface : Interface :=
  ⟨(List.range descriptor.readPorts).map descriptor.readPort,
    (List.range descriptor.readWritePorts).map descriptor.readWritePort,
    (List.range descriptor.writePorts).map descriptor.writePort⟩

theorem signals_interface :
    descriptor.interface.signals =
      descriptor.eachPort fun kind index => kind.inputs.map (descriptor.portSignal kind index) := by
  simp only [Interface.signals, interface, eachPort, kindOrder, List.flatMap_map,
    List.flatMap_cons, List.flatMap_nil, List.append_nil, List.append_assoc]
  rfl

private theorem isInput_of_mem_inputs {port : Port}
    (member : port ∈ descriptor.eachPort descriptor.portInputs) : port.isInput = true := by
  simp only [eachPort, portInputs, List.mem_flatMap, List.mem_map] at member
  obtain ⟨kind, -, index, -, input, -, rfl⟩ := member
  rfl

private theorem isInput_of_mem_outputs {port : Port}
    (member : port ∈ descriptor.eachPort descriptor.portOutputs) : port.isInput = false := by
  simp only [eachPort, portOutputs, List.mem_flatMap, List.mem_map] at member
  obtain ⟨kind, -, index, -, name, -, rfl⟩ := member
  rfl

/-- Among the ports of a descriptor, the inputs are those that are described as such. -/
theorem filter_isInput : descriptor.ports.filter Port.isInput =
    descriptor.eachPort descriptor.portInputs := by
  have inputs : (descriptor.eachPort descriptor.portInputs).filter Port.isInput =
      descriptor.eachPort descriptor.portInputs :=
    List.filter_eq_self.mpr fun _ member => descriptor.isInput_of_mem_inputs member
  have outputs : (descriptor.eachPort descriptor.portOutputs).filter Port.isInput = [] :=
    List.filter_eq_nil_iff.mpr fun port member => by
      simp [descriptor.isInput_of_mem_outputs member]
  rw [ports_eq, List.filter_append, inputs, outputs, List.append_nil]

theorem filter_not_isInput : descriptor.ports.filter (fun port => !port.isInput) =
    descriptor.eachPort descriptor.portOutputs := by
  have inputs : (descriptor.eachPort descriptor.portInputs).filter (fun port => !port.isInput) =
      [] := List.filter_eq_nil_iff.mpr fun port member => by
    simp [descriptor.isInput_of_mem_inputs member]
  have outputs : (descriptor.eachPort descriptor.portOutputs).filter (fun port => !port.isInput) =
      descriptor.eachPort descriptor.portOutputs := List.filter_eq_self.mpr fun port member => by
    simp [descriptor.isInput_of_mem_outputs member]
  rw [ports_eq, List.filter_append, inputs, outputs, List.nil_append]

/-- The outputs of a descriptor: those of the read ports, then those of the read-write ports. -/
theorem outputs_eq : descriptor.ports.filter (fun port => !port.isInput) =
    ((List.range descriptor.readPorts).map fun index =>
        .output descriptor.dataWidth (PortKind.read.signalName index "data")) ++
      (List.range descriptor.readWritePorts).map fun index =>
        .output descriptor.dataWidth (PortKind.readWrite.signalName index "rdata") := by
  have one : ∀ {kind : PortKind} {field : String}, kind.outputName? = some field →
      descriptor.portOutputs kind =
        fun index => [.output descriptor.dataWidth (kind.signalName index field)] := by
    intro kind field named
    funext index
    rw [portOutputs, named]
    rfl
  have read := one (show PortKind.read.outputName? = some "data" from rfl)
  have readWrite := one (show PortKind.readWrite.outputName? = some "rdata" from rfl)
  have write : descriptor.portOutputs .write = fun _ => [] := rfl
  simp only [filter_not_isInput, eachPort, kindOrder, List.flatMap_cons, List.flatMap_nil, read,
    readWrite, write, flatMap_nothing, List.append_nil,
    ← List.map_eq_flatMap]
  rfl

private theorem sized_portSignals (kind : PortKind) (index : Nat) :
    Sized descriptor kind (kind.inputs.map (descriptor.portSignal kind index)) := by
  cases kind <;> simp [Sized, PortKind.inputs, portSignal, Signal.ident]

theorem groups_interface :
    descriptor.interface.Groups descriptor descriptor.interface.signals where
  read := by simp [interface]
  readWrite := by simp [interface]
  write := by simp [interface]
  signals := rfl

theorem sized_interface : descriptor.interface.Sized descriptor where
  read port member := by
    obtain ⟨index, -, rfl⟩ := List.mem_map.mp member
    exact descriptor.sized_portSignals .read index
  readWrite port member := by
    obtain ⟨index, -, rfl⟩ := List.mem_map.mp member
    exact descriptor.sized_portSignals .readWrite index
  write port member := by
    obtain ⟨index, -, rfl⟩ := List.mem_map.mp member
    exact descriptor.sized_portSignals .write index

/-- The inputs of a descriptor's own ports are the signals of its interface. -/
theorem inputs_eq : (descriptor.ports.filter Port.isInput).map
    (fun port => Signal.ident port.name port.width) = descriptor.interface.signals := by
  rw [filter_isInput, signals_interface]
  simp only [eachPort, List.map_flatMap, portInputs, List.map_map]
  rfl

/-- A descriptor's own ports have as many outputs as it has ports that read, of the width of the
data. -/
theorem checkOutputs_ports (name : String) :
    checkOutputs descriptor (ModuleDraft.start name descriptor.ports).outputs = .ok () := by
  rw [show (ModuleDraft.start name descriptor.ports).outputs = _ from descriptor.outputs_eq]
  have wide : ∀ (count : Nat) (name : Nat → String),
      ((List.range count).map fun index => Port.output descriptor.dataWidth (name index)).find?
        (fun port => port.width ≠ descriptor.dataWidth) = none := by
    intro count name
    apply List.find?_eq_none.mpr
    intro port member
    obtain ⟨index, -, rfl⟩ := List.mem_map.mp member
    simp [Port.output]
  rw [checkOutputs, if_neg (by simp [outputCount]), List.find?_append, wide, wide]
  rfl

/-- The inputs of a descriptor's own ports are taken as the ports of its interface. -/
theorem ofSignals_ports (name : String) :
    Interface.ofSignals descriptor (ModuleDraft.start name descriptor.ports).inputs =
      .ok descriptor.interface := by
  rw [show (ModuleDraft.start name descriptor.ports).inputs = _ from descriptor.inputs_eq]
  exact ofSignals_of_groups descriptor.groups_interface descriptor.sized_interface

/-- A memory that a descriptor describes is lowered with the ports of the descriptor. -/
theorem exists_lower (scope : Scope) (name : String) (options : LoweringOptions)
    (valid : descriptor.validate = .ok ()) :
    ∃ module, lower scope name descriptor.ports descriptor options = .ok module := by
  obtain ⟨-, module, lowered, -⟩ := lower_of_checks scope options valid
    (descriptor.ofSignals_ports name) (descriptor.checkOutputs_ports name)
  exact ⟨module, lowered⟩

theorem signalName_eq (kind : PortKind) (index : Nat) (field : String) :
    kind.signalName index field = kind.letters ++ toString index ++ ("_" ++ field) := by
  simp only [PortKind.signalName, PortKind.portName, String.append_assoc]

/-- The ports of a descriptor, read back as the inputs and outputs of a memory, are the ones it
describes: every signal is bound to the input of its name, the outputs stand in the order of the
ports, and a memory is lowered with them exactly if the descriptor describes one. -/
theorem ports_regroup (descriptor : Descriptor) :
    (descriptor.ports.map Port.name).Nodup ∧
    (descriptor.ports.filter Port.isInput).length = descriptor.inputCount ∧
    ((descriptor.ports.filter Port.isInput).length < wordRange →
      (descriptor.ports.filter Port.isInput).length = descriptor.inputWord) ∧
    (descriptor.ports.filter fun port => !port.isInput).length = descriptor.outputCount ∧
    (∃ interface,
      Interface.ofSignals descriptor ((descriptor.ports.filter Port.isInput).map
        fun port => .ident port.name port.width) = .ok interface ∧
      interface.read.length = descriptor.readPorts ∧
      interface.readWrite.length = descriptor.readWritePorts ∧
      interface.write.length = descriptor.writePorts ∧
      (∀ index < descriptor.readPorts, interface.read[index]? = some
        { clock := .ident ("R" ++ toString index ++ "_clk") 1
          enable := .ident ("R" ++ toString index ++ "_en") 1
          address := .ident ("R" ++ toString index ++ "_addr") (addressWidth descriptor.depth) }) ∧
      (∀ index < descriptor.readWritePorts, interface.readWrite[index]? = some
        { clock := .ident ("RW" ++ toString index ++ "_clk") 1
          enable := .ident ("RW" ++ toString index ++ "_en") 1
          address := .ident ("RW" ++ toString index ++ "_addr") (addressWidth descriptor.depth)
          mode := .ident ("RW" ++ toString index ++ "_wmode") 1
          mask := .ident ("RW" ++ toString index ++ "_wmask") 1
          data := .ident ("RW" ++ toString index ++ "_wdata") descriptor.dataWidth }) ∧
      ∀ index < descriptor.writePorts, interface.write[index]? = some
        { clock := .ident ("W" ++ toString index ++ "_clk") 1
          enable := .ident ("W" ++ toString index ++ "_en") 1
          address := .ident ("W" ++ toString index ++ "_addr") (addressWidth descriptor.depth)
          mask := .ident ("W" ++ toString index ++ "_mask") 1
          data := .ident ("W" ++ toString index ++ "_data") descriptor.dataWidth }) ∧
    (∀ index < descriptor.outputCount,
      (descriptor.ports.filter fun port => !port.isInput)[index]? =
        some (.output descriptor.dataWidth
          (if index < descriptor.readPorts then "R" ++ toString index ++ "_data"
          else "RW" ++ toString (index - descriptor.readPorts) ++ "_rdata"))) ∧
    ∀ scope name options,
      (∃ module, lower scope name descriptor.ports descriptor options = .ok module) ↔
        descriptor.validate = .ok () := by
  have counted : (descriptor.ports.filter Port.isInput).length = descriptor.inputCount := by
    rw [← descriptor.groups_interface.length_eq, ← inputs_eq, List.length_map]
  refine ⟨descriptor.nodup_names, counted, ?_, ?_,
    ⟨descriptor.interface, ?_, ?_, ?_, ?_, ?_, ?_, ?_⟩, ?_, ?_⟩
  · intro fits
    rw [counted] at fits ⊢
    exact (inputWord_of_lt fits).symm
  · simp [outputs_eq, outputCount]
  · rw [inputs_eq]
    exact ofSignals_of_groups descriptor.groups_interface descriptor.sized_interface
  · exact descriptor.groups_interface.read
  · exact descriptor.groups_interface.readWrite
  · exact descriptor.groups_interface.write
  · intro index inside
    have place : descriptor.interface.read[index]? = some (descriptor.readPort index) := by
      simp [interface, inside]
    simp only [place, readPort, portSignal, signalName_eq]
    rfl
  · intro index inside
    have place : descriptor.interface.readWrite[index]? = some (descriptor.readWritePort index) := by
      simp [interface, inside]
    simp only [place, readWritePort, portSignal, signalName_eq]
    rfl
  · intro index inside
    have place : descriptor.interface.write[index]? = some (descriptor.writePort index) := by
      simp [interface, inside]
    simp only [place, writePort, portSignal, signalName_eq]
    rfl
  · intro index inside
    have total : index < descriptor.readPorts + descriptor.readWritePorts := inside
    rw [outputs_eq, List.getElem?_append, List.length_map, List.length_range]
    split
    · rename_i early
      rw [List.getElem?_map, List.getElem?_range early, Option.map_some, signalName_eq]
      rfl
    · rename_i late
      have rest : index - descriptor.readPorts < descriptor.readWritePorts := by omega
      rw [List.getElem?_map, List.getElem?_range rest, Option.map_some, signalName_eq]
      rfl
  · intro scope name options
    constructor
    · rintro ⟨module, lowered⟩
      exact (checks_of_lower lowered).1
    · exact descriptor.exists_lower scope name options

end Descriptor

/-- With the ports of the descriptor, a layout has the interface of the descriptor. -/
theorem Layout.Describes.interface_eq {layout : Layout} {module : Module} {descriptor : Descriptor}
    (describes : layout.Describes module descriptor) (own : module.ports = descriptor.ports) :
    layout.interface = descriptor.interface := by
  have signals : layout.inputs = descriptor.interface.signals := by
    rw [describes.inputs, Module.inputs, own, descriptor.inputs_eq]
  have groups := describes.realizes.groups
  rw [signals] at groups
  exact Except.ok.inj ((ofSignals_of_groups groups describes.realizes.sized).symm.trans
    (ofSignals_of_groups descriptor.groups_interface descriptor.sized_interface))

end Multiport.Memory
