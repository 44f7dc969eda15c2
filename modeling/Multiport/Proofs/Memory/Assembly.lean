import Multiport.Proofs.Memory.Grouping
import Multiport.Proofs.Memory.Layout

namespace Multiport.Memory

/-- All inputs of a port pass the same number of registers. -/
def Staged (lanes : List Lane) (stages : Nat) : Prop :=
  ∀ lane ∈ lanes, lane.registers.length = stages

/-- The names wanted for the registers behind the inputs of a port. -/
def stagedNames (kind : PortKind) (scope : Scope) (stages : Nat) : List String :=
  (kind.inputs.drop 1).flatMap fun input => laneNames (scope.enter input.name) stages

/-- The names wanted for a read-write port: the registers, then what its logic declares. -/
def readWriteNames (scope : Scope) (stages : Nat) : List String :=
  stagedNames .readWrite scope stages ++ ["wcond", "rcond", "rdata_hold"].map scope.qualify

theorem ReadPort.extends_connect (port : ReadPort) (storage : Storage) (stages : Nat)
    (scope : Scope) (draft : ModuleDraft) :
    ∃ (plan : ReadPlan) (after : ModuleDraft), plan.port = port ∧ Staged plan.lanes stages ∧
      port.connect scope storage stages draft = (plan.value storage, after) ∧
      draft.Extends after (stagedNames .read scope stages) plan.circuit.items := by
  obtain ⟨enable, behindEnable, enableLength, enableDelay, enableExtends⟩ :=
    extends_delay draft (scope.enter "en") port.enable port.clock stages
  obtain ⟨address, behindAddress, addressLength, addressDelay, addressExtends⟩ :=
    extends_delay behindEnable (scope.enter "addr") port.address port.clock stages
  refine ⟨⟨port, enable, address⟩, behindAddress, rfl, ?_, ?_, ?_⟩
  · simp [Staged, ReadPlan.lanes, ReadPlan.enable, ReadPlan.address, enableLength, addressLength]
  · simp only [ReadPort.connect, enableDelay, addressDelay]
    rfl
  · have whole := enableExtends.trans addressExtends
    simpa [Circuit.items, ReadPlan.circuit, ReadPlan.lanes, ReadPlan.enable, ReadPlan.address,
      stagedNames, PortKind.inputs] using whole

theorem WritePort.extends_connect (port : WritePort) (storage : Storage) (stages : Nat)
    (scope : Scope) (draft : ModuleDraft) :
    ∃ (plan : WritePlan) (after : ModuleDraft), plan.port = port ∧ Staged plan.lanes stages ∧
      port.connect scope storage stages draft = after ∧
      draft.Extends after (stagedNames .write scope stages) (plan.circuit storage).items := by
  obtain ⟨enable, behindEnable, enableLength, enableDelay, enableExtends⟩ :=
    extends_delay draft (scope.enter "en") port.enable port.clock stages
  obtain ⟨address, behindAddress, addressLength, addressDelay, addressExtends⟩ :=
    extends_delay behindEnable (scope.enter "addr") port.address port.clock stages
  obtain ⟨mask, behindMask, maskLength, maskDelay, maskExtends⟩ :=
    extends_delay behindAddress (scope.enter "mask") port.mask port.clock stages
  obtain ⟨data, behindData, dataLength, dataDelay, dataExtends⟩ :=
    extends_delay behindMask (scope.enter "data") port.data port.clock stages
  let plan : WritePlan := ⟨port, enable, address, mask, data⟩
  have stored := behindData.extends_clocked port.clock (plan.store storage)
  refine ⟨plan, behindData.clocked port.clock (plan.store storage), rfl, ?_, ?_, ?_⟩
  · simp [Staged, plan, WritePlan.lanes, WritePlan.enable, WritePlan.address, WritePlan.mask,
      WritePlan.data, enableLength, addressLength, maskLength, dataLength]
  · simp only [WritePort.connect, enableDelay, addressDelay, maskDelay, dataDelay]
    rfl
  · have whole := enableExtends.trans (addressExtends.trans (maskExtends.trans
      (dataExtends.trans stored)))
    simpa [plan, Circuit.items, WritePlan.circuit, WritePlan.lanes, WritePlan.enable,
      WritePlan.address, WritePlan.mask, WritePlan.data, stagedNames, PortKind.inputs] using whole

theorem ReadWritePort.extends_connect (port : ReadWritePort) (storage : Storage) (stages : Nat)
    (scope : Scope) (draft : ModuleDraft) :
    ∃ (plan : ReadWritePlan) (after : ModuleDraft), plan.port = port ∧
      Staged plan.lanes stages ∧
      port.connect scope storage stages draft = (.ident plan.held storage.width, after) ∧
      draft.Extends after (readWriteNames scope stages) (plan.circuit storage).items := by
  obtain ⟨enable, behindEnable, enableLength, enableDelay, enableExtends⟩ :=
    extends_delay draft (scope.enter "en") port.enable port.clock stages
  obtain ⟨address, behindAddress, addressLength, addressDelay, addressExtends⟩ :=
    extends_delay behindEnable (scope.enter "addr") port.address port.clock stages
  obtain ⟨mode, behindMode, modeLength, modeDelay, modeExtends⟩ :=
    extends_delay behindAddress (scope.enter "wmode") port.mode port.clock stages
  obtain ⟨mask, behindMask, maskLength, maskDelay, maskExtends⟩ :=
    extends_delay behindMode (scope.enter "wmask") port.mask port.clock stages
  obtain ⟨data, behindData, dataLength, dataDelay, dataExtends⟩ :=
    extends_delay behindMask (scope.enter "wdata") port.data port.clock stages
  -- The conditions do not depend on the names of the nets and of the register.
  let named (writes reads held : String) : ReadWritePlan :=
    ⟨port, enable, address, mode, mask, data, writes, reads, held⟩
  obtain ⟨writes, behindWrites, writesNet, writesExtends⟩ :=
    behindData.extends_declareNet scope "wcond" (named "" "" "").writeCondition 1
  obtain ⟨reads, behindReads, readsNet, readsExtends⟩ :=
    behindWrites.extends_declareNet scope "rcond" (named "" "" "").readCondition 1
  obtain ⟨held, behindHeld, heldReg, heldExtends⟩ :=
    behindReads.extends_declareReg scope "rdata_hold" storage.width
  let plan := named writes reads held
  have settled := behindHeld.extends_combinational (plan.settle storage)
  let behindSettled := behindHeld.combinational (plan.settle storage)
  have stored := behindSettled.extends_clocked port.clock (plan.store storage)
  refine ⟨plan, behindSettled.clocked port.clock (plan.store storage), rfl, ?_, ?_, ?_⟩
  · simp [Staged, plan, named, ReadWritePlan.lanes, ReadWritePlan.enable, ReadWritePlan.address,
      ReadWritePlan.mode, ReadWritePlan.mask, ReadWritePlan.data, enableLength, addressLength,
      modeLength, maskLength, dataLength]
  · have writesStep : behindData.declareNet scope "wcond"
        (.combine .and (Lane.output ⟨port.enable, enable⟩).expr
          (.combine .and (Lane.output ⟨port.mask, mask⟩).expr
            (Lane.output ⟨port.mode, mode⟩).expr)) 1 = _ := writesNet
    have readsStep : behindWrites.declareNet scope "rcond"
        (.combine .and (Lane.output ⟨port.enable, enable⟩).expr
          (.combine .equal (Lane.output ⟨port.mode, mode⟩).expr (.constant 1 0))) 1 = _ := readsNet
    simp only [ReadWritePort.connect, enableDelay, addressDelay, modeDelay, maskDelay, dataDelay,
      writesStep, readsStep, heldReg]
    rfl
  · have whole := enableExtends.trans (addressExtends.trans (modeExtends.trans (maskExtends.trans
      (dataExtends.trans (writesExtends.trans (readsExtends.trans (heldExtends.trans
        (settled.trans stored))))))))
    rw [show (named "" "" "").writeCondition = plan.writeCondition from rfl,
      show (named "" "" "").readCondition = plan.readCondition from rfl] at whole
    simpa [plan, named, Circuit.items, ReadWritePlan.circuit, ReadWritePlan.lanes,
      ReadWritePlan.logic, ReadWritePlan.enable, ReadWritePlan.address, ReadWritePlan.mode,
      ReadWritePlan.mask, ReadWritePlan.data, readWriteNames, stagedNames, PortKind.inputs]
      using whole

theorem extends_connectAll {Port Plan Answer : Type} (title : String) (kind : PortKind)
    {connect : Port → Scope → ModuleDraft → Answer × ModuleDraft} {port : Plan → Port}
    {answer : Plan → Answer} {items : Plan → List Item} {wanted : Scope → List String}
    {fits : Plan → Prop}
    (connected : ∀ given scope draft, ∃ plan after, port plan = given ∧ fits plan ∧
      connect given scope draft = (answer plan, after) ∧
      draft.Extends after (wanted scope) (items plan))
    (scope : Scope) (index : Nat) (given : List Port) (draft : ModuleDraft) :
    ∃ (plans : List Plan) (after : ModuleDraft), plans.map port = given ∧
      (∀ plan ∈ plans, fits plan) ∧
      connectAll title kind scope connect index given draft = .ok (plans.map answer, after) ∧
      draft.Extends after
        ((List.range' index given.length).flatMap fun place =>
          wanted (scope.enter (kind.portName place)))
        (plans.flatMap items) := by
  induction given generalizing index draft with
  | nil => exact ⟨[], draft, rfl, by simp, rfl, .refl draft⟩
  | cons first rest ih =>
    let name := kind.portName index
    obtain ⟨plan, inside, samePort, fitting, step, extended⟩ :=
      connected first (scope.enter name) (draft.enterSection (title ++ " " ++ name))
    obtain ⟨middle, left, firstExtends⟩ := ModuleDraft.leaveSection_of_extends extended
    obtain ⟨plans, after, samePorts, fittings, steps, restExtends⟩ := ih (index + 1) middle
    refine ⟨plan :: plans, after, by simp [samePort, samePorts], ?_, ?_, ?_⟩
    · intro candidate member
      rcases List.mem_cons.mp member with rfl | later
      · exact fitting
      · exact fittings candidate later
    · simp only [connectAll, name] at step left ⊢
      simp only [step, left, steps, ok_bind, pure_eq_ok, List.map_cons]
    · have whole := firstExtends.trans restExtends
      simpa [List.range'_succ] using whole

def kindNames (kind : PortKind) (scope : Scope) (count : Nat) (wanted : Scope → List String) :
    List String :=
  (List.range' 0 count).flatMap fun place => wanted (scope.enter (kind.portName place))

/-- All names wanted for a lowered memory, in the order in which they are made. -/
def loweringNames (scope : Scope) (descriptor : Descriptor) (options : LoweringOptions) :
    List String :=
  scope.qualify options.storageName ::
    (kindNames .read scope descriptor.readPorts
        (stagedNames .read · descriptor.readStages) ++
      kindNames .readWrite scope descriptor.readWritePorts
        (readWriteNames · (descriptor.readWriteStages?.getD 0)) ++
      kindNames .write scope descriptor.writePorts
        (stagedNames .write · (descriptor.writeStages?.getD 0)))

/-- A layout is one for a descriptor: its storage has the size, its ports are the input signals,
each delayed by the stages of its kind, and its outputs have the width of the data. -/
structure Layout.Realizes (layout : Layout) (descriptor : Descriptor) : Prop where
  width : layout.storage.width = descriptor.dataWidth
  depth : layout.storage.depth = descriptor.depth
  groups : layout.interface.Groups descriptor layout.inputs
  sized : layout.interface.Sized descriptor
  read : ∀ plan ∈ layout.read, Staged plan.lanes descriptor.readStages
  readWrite : ∀ plan ∈ layout.readWrite, Staged plan.lanes (descriptor.readWriteStages?.getD 0)
  write : ∀ plan ∈ layout.write, Staged plan.lanes (descriptor.writeStages?.getD 0)
  outputCount : layout.outputs.length = descriptor.outputCount
  outputWidth : ∀ port ∈ layout.outputs, port.width = descriptor.dataWidth

private theorem extends_assemble (scope : Scope) (descriptor : Descriptor)
    (options : LoweringOptions) {interface : Interface} {draft : ModuleDraft}
    {signals : List Signal} (grouped : interface.Groups descriptor signals) :
    ∃ (layout : Layout) (after : ModuleDraft), layout.ports = draft.ports ∧
      layout.interface = interface ∧ layout.storage.width = descriptor.dataWidth ∧
      layout.storage.depth = descriptor.depth ∧
      (∀ plan ∈ layout.read, Staged plan.lanes descriptor.readStages) ∧
      (∀ plan ∈ layout.readWrite, Staged plan.lanes (descriptor.readWriteStages?.getD 0)) ∧
      (∀ plan ∈ layout.write, Staged plan.lanes (descriptor.writeStages?.getD 0)) ∧
      assemble scope descriptor options interface draft = .ok (layout.values, after) ∧
      draft.Extends after (loweringNames scope descriptor options) layout.built := by
  obtain ⟨storageName, behindStorage, declared, storageExtends⟩ :=
    draft.extends_declareStorage scope options.storageName descriptor.dataWidth descriptor.depth
  let storage : Storage := ⟨storageName, descriptor.dataWidth, descriptor.depth⟩
  obtain ⟨read, behindRead, readPorts, readStaged, readStep, readExtends⟩ :=
    extends_connectAll "Read port" .read
      (fun port scope draft =>
        ReadPort.extends_connect port storage descriptor.readStages scope draft)
      scope 0 interface.read behindStorage
  obtain ⟨readWrite, behindReadWrite, readWritePorts, readWriteStaged, readWriteStep,
      readWriteExtends⟩ :=
    extends_connectAll "Read-write port" .readWrite
      (fun port scope draft => ReadWritePort.extends_connect port storage
        (descriptor.readWriteStages?.getD 0) scope draft)
      scope 0 interface.readWrite behindRead
  have writeConnected : ∀ (port : WritePort) (scope : Scope) (draft : ModuleDraft),
      ∃ (plan : WritePlan) (after : ModuleDraft), plan.port = port ∧
        Staged plan.lanes (descriptor.writeStages?.getD 0) ∧
        ((), port.connect scope storage (descriptor.writeStages?.getD 0) draft) =
          ((fun _ => ()) plan, after) ∧
        draft.Extends after (stagedNames .write scope (descriptor.writeStages?.getD 0))
          (plan.circuit storage).items := by
    intro port scope draft
    obtain ⟨plan, after, samePort, staged, connected, extended⟩ :=
      WritePort.extends_connect port storage (descriptor.writeStages?.getD 0) scope draft
    exact ⟨plan, after, samePort, staged, congrArg (Prod.mk ()) connected, extended⟩
  obtain ⟨write, behindWrite, writePorts, writeStaged, writeStep, writeExtends⟩ :=
    extends_connectAll "Write port" .write writeConnected scope 0 interface.write behindReadWrite
  let layout : Layout := ⟨draft.ports, storage, read, readWrite, write⟩
  refine ⟨layout, behindWrite, rfl, ?_, rfl, rfl, readStaged, readWriteStaged, writeStaged, ?_, ?_⟩
  · simp [layout, Layout.interface, readPorts, readWritePorts, writePorts]
  · simp only [assemble, declared]
    rw [show connectAll "Read port" .read scope _ 0 interface.read behindStorage = _ from readStep]
    simp only [ok_bind]
    rw [show connectAll "Read-write port" .readWrite scope _ 0 interface.readWrite behindRead = _
      from readWriteStep]
    simp only [ok_bind]
    rw [show connectAll "Write port" .write scope _ 0 interface.write behindReadWrite = _
      from writeStep]
    rfl
  · have whole := storageExtends.trans (readExtends.trans (readWriteExtends.trans writeExtends))
    rw [grouped.read, grouped.readWrite, grouped.write] at whole
    simpa [layout, storage, Layout.built, Layout.circuits, loweringNames, kindNames,
      List.flatMap_map] using whole

private theorem extends_driveOutputs {draft : ModuleDraft} {layout : Layout}
    (ports : layout.ports = draft.ports) (counted : layout.outputs.length = layout.values.length)
    (fitting : ∀ pair ∈ layout.outputs.zip layout.values, pair.1.width = pair.2.width) :
    ∃ after, draft.driveOutputs layout.values = .ok after ∧
      draft.Extends after [] (if layout.driven.isEmpty then [] else [.assigns layout.driven]) := by
  have outputs : draft.outputs = layout.outputs := by
    simp [ModuleDraft.outputs, Layout.outputs, ports]
  have assigned : ModuleDraft.assignPorts (layout.outputs.zip layout.values) = .ok layout.driven :=
    ModuleDraft.assignPorts_eq_ok_iff.mpr ⟨fitting, rfl⟩
  have pushed := draft.extends_push (.assigns layout.driven) rfl
  simp only [Item.flatten] at pushed
  simp only [ModuleDraft.driveOutputs, outputs, counted, ne_eq, not_true_eq_false, ↓reduceIte,
    assigned, ok_bind, pure_eq_ok]
  split
  · exact ⟨draft, rfl, .refl draft⟩
  · exact ⟨draft.push (.assigns layout.driven), rfl, pushed⟩

private theorem checkOutputs_ok {descriptor : Descriptor} {outputs : List Port}
    (checked : checkOutputs descriptor outputs = .ok ()) :
    outputs.length = descriptor.outputCount ∧
      ∀ port ∈ outputs, port.width = descriptor.dataWidth := by
  unfold checkOutputs at checked
  split at checked
  · cases checked
  · rename_i counted
    split at checked
    · cases checked
    · rename_i fitting
      refine ⟨Decidable.not_not.mp counted, ?_⟩
      intro port member
      simpa using List.find?_eq_none.mp fitting port member

/-- Once the checks have passed, a memory is lowered, and to the items of a layout for the
descriptor. -/
theorem lower_of_checks (scope : Scope) (options : LoweringOptions) {name : String}
    {ports : List Port} {descriptor : Descriptor} {interface : Interface}
    (valid : descriptor.validate = .ok ())
    (grouped : Interface.ofSignals descriptor (ModuleDraft.start name ports).inputs = .ok interface)
    (checked : checkOutputs descriptor (ModuleDraft.start name ports).outputs = .ok ()) :
    ∃ (layout : Layout) (module : Module), lower scope name ports descriptor options = .ok module ∧
      module.name = name ∧ module.ports = layout.ports ∧ module.items = layout.items ∧
      layout.ports = ports ∧ layout.interface = interface ∧ layout.Realizes descriptor ∧
      (layout.items.flatMap Item.declared).map Declaration.name =
        freshNames (ports.map Port.name) (loweringNames scope descriptor options) := by
  obtain ⟨groups, sized⟩ := ofSignals_ok grouped
  obtain ⟨counted, wide⟩ := checkOutputs_ok checked
  obtain ⟨layout, assembled, samePorts, sameInterface, width, depth, read, readWrite, write,
    assembly, built⟩ := extends_assemble scope descriptor options groups
  have sameOutputs : layout.outputs = (ModuleDraft.start name ports).outputs := by
    rw [Layout.outputs, samePorts]
    rfl
  have sameInputs : layout.inputs = (ModuleDraft.start name ports).inputs := by
    rw [Layout.inputs, samePorts]
    rfl
  have enough : layout.outputs.length = layout.values.length := by
    rw [sameOutputs, counted, layout.length_values, sameInterface, groups.read, groups.readWrite]
    rfl
  have fitting : ∀ pair ∈ layout.outputs.zip layout.values, pair.1.width = pair.2.width := by
    rintro ⟨port, value⟩ member
    obtain ⟨output, shown⟩ := List.of_mem_zip member
    rw [sameOutputs] at output
    exact (wide port output).trans ((Layout.width_of_mem_values shown).trans width).symm
  obtain ⟨after, driven, extended⟩ :=
    extends_driveOutputs (samePorts.trans built.ports.symm) enough fitting
  have whole := built.trans extended
  have closed : after.sections = [] := by
    simpa [ModuleDraft.start] using whole.sections
  obtain ⟨module, finished, moduleName, modulePorts, moduleItems⟩ :=
    ModuleDraft.finish_of_sections_eq_nil closed
  refine ⟨layout, module, ?_, moduleName.trans whole.name, ?_, ?_, samePorts, sameInterface,
    ⟨width, depth, ?_, ?_, read, readWrite, write, ?_, ?_⟩, ?_⟩
  · simp only [lower, valid, grouped, checked, assembly, driven, finished, liftBreach, liftDraft,
      ok_bind]
  · rw [modulePorts, whole.ports, samePorts]
  · rw [moduleItems, whole.items]
    rfl
  · rw [sameInterface, sameInputs]
    exact groups
  · rw [sameInterface]
    exact sized
  · rw [sameOutputs]
    exact counted
  · rw [sameOutputs]
    exact wide
  · have declared := whole.declared
    rw [List.append_nil] at declared
    exact declared

theorem checks_of_lower {scope : Scope} {name : String} {ports : List Port}
    {descriptor : Descriptor} {options : LoweringOptions} {module : Module}
    (lowered : lower scope name ports descriptor options = .ok module) :
    descriptor.validate = .ok () ∧
      (∃ interface,
        Interface.ofSignals descriptor (ModuleDraft.start name ports).inputs = .ok interface) ∧
      checkOutputs descriptor (ModuleDraft.start name ports).outputs = .ok () := by
  unfold lower at lowered
  split at lowered
  · cases lowered
  · rename_i valid
    obtain ⟨interface, grouped, lowered⟩ := bind_eq_ok_iff.mp lowered
    obtain ⟨⟨⟩, checked, -⟩ := bind_eq_ok_iff.mp lowered
    exact ⟨valid, ⟨interface, grouped⟩, checked⟩

/-- The items of a lowered memory are those of a layout, and no two of its ports and declarations
share a name if no two ports do. -/
theorem lower_layout {scope : Scope} {name : String} {ports : List Port}
    {descriptor : Descriptor} {options : LoweringOptions} {module : Module}
    (lowered : lower scope name ports descriptor options = .ok module)
    (distinct : (ports.map Port.name).Nodup) :
    ∃ layout : Layout, module.ports = layout.ports ∧ layout.ports = ports ∧
      module.items = layout.items ∧ layout.Realizes descriptor ∧
      (layout.ports.map Port.name ++
        (layout.items.flatMap Item.declared).map Declaration.name).Nodup := by
  obtain ⟨valid, ⟨interface, grouped⟩, checked⟩ := checks_of_lower lowered
  obtain ⟨layout, built, again, -, samePorts, sameItems, givenPorts, -, realizes, declared⟩ :=
    lower_of_checks scope options valid grouped checked
  obtain rfl : module = built := Except.ok.inj (lowered.symm.trans again)
  refine ⟨layout, samePorts, givenPorts, sameItems, realizes, ?_⟩
  rw [declared, givenPorts]
  exact nodup_freshNames _ distinct

end Multiport.Memory
