import Multiport.Memory.Lowering
import Multiport.Proofs.Memory.Grouping

/-! Lowering with every contract checked. Here the inputs are counted off and taken one by one, a
word is named by indexing its array, and a block is assembled step by step; each of these calls may
refuse. `lower` takes the inputs by their pattern and has the blocks as they come out. Both ways of
lowering answer alike, so a call that refuses would show as a breach of `lower`. -/
namespace Multiport.Memory.Stepwise

def next : List Signal → Except Breach (Signal × List Signal)
  | [] => .error .signalsExhausted
  | signal :: rest => .ok (signal, rest)

def readPort (signals : List Signal) : Except Breach ReadPort := do
  let (clock, signals) ← next signals
  let (enable, signals) ← next signals
  let (address, _) ← next signals
  return ⟨clock, enable, address⟩

def writePort (signals : List Signal) : Except Breach WritePort := do
  let (clock, signals) ← next signals
  let (enable, signals) ← next signals
  let (address, signals) ← next signals
  let (mask, signals) ← next signals
  let (data, _) ← next signals
  return ⟨clock, enable, address, mask, data⟩

def readWritePort (signals : List Signal) : Except Breach ReadWritePort := do
  let (clock, signals) ← next signals
  let (enable, signals) ← next signals
  let (address, signals) ← next signals
  let (mode, signals) ← next signals
  let (mask, signals) ← next signals
  let (data, _) ← next signals
  return ⟨clock, enable, address, mode, mask, data⟩

/-- Takes a number of ports of one kind from a list of signals, each from as many as it has
inputs. -/
def takePorts {α : Type} (descriptor : Descriptor) (kind : PortKind)
    (port : List Signal → Except Breach α) :
    Nat → Nat → List Signal → Except LoweringError (List α × List Signal)
  | 0, _, signals => .ok ([], signals)
  | count + 1, index, signals => do
      let fields := signals.take kind.arity
      if fields.length ≠ kind.arity then
        throw (.breach .signalsExhausted)
      checkWidths descriptor (kind.portName index) (kind.inputs.zip fields)
      let first ← liftBreach (port fields)
      let (ports, rest) ←
        takePorts descriptor kind port count (index + 1) (signals.drop kind.arity)
      return (first :: ports, rest)

/-- Takes the input signals of a memory apart into its ports, which leave none over. -/
def ofSignals (descriptor : Descriptor) (signals : List Signal) :
    Except LoweringError Interface := do
  if signals.length ≠ descriptor.expectedCount signals.length then
    throw (.signalCount (descriptor.expectedCount signals.length) signals.length)
  let (read, signals) ← takePorts descriptor .read readPort descriptor.readPorts 0 signals
  let (readWrite, signals) ←
    takePorts descriptor .readWrite readWritePort descriptor.readWritePorts 0 signals
  let (write, signals) ← takePorts descriptor .write writePort descriptor.writePorts 0 signals
  if !signals.isEmpty then
    throw (.breach .signalsExhausted)
  return ⟨read, readWrite, write⟩

/-- The word at an address, as something to assign to. -/
def slot (storage : Storage) (address : Signal) : Except Breach Expr :=
  (Expr.ident storage.name).indexed address.expr

/-- Adds a block that is assembled by steps and runs when a clock rises. -/
def clocked (draft : ModuleDraft) (clock : Signal) (steps : List BlockStep) :
    Except Breach ModuleDraft :=
  return draft.clocked clock (← BlockDraft.assemble steps)

/-- Adds a block that is assembled by steps and runs whenever something it reads changes. -/
def combinational (draft : ModuleDraft) (steps : List BlockStep) : Except Breach ModuleDraft :=
  return draft.combinational (← BlockDraft.assemble steps)

def delay (draft : ModuleDraft) (scope : Scope) (signal clock : Signal) :
    Nat → Except Breach (Signal × ModuleDraft)
  | 0 => .ok (signal, draft)
  | stages + 1 => do
      let (current, draft) ← delay draft scope signal clock stages
      let (captured, draft) := draft.declareReg scope ("d" ++ toString stages) current.width
      let draft ← clocked draft clock [.nonblocking captured.expr current.expr]
      return (captured, draft)

def connectRead (port : ReadPort) (scope : Scope) (storage : Storage) (stages : Nat)
    (draft : ModuleDraft) : Except Breach (Signal × ModuleDraft) := do
  let (enable, draft) ← delay draft (scope.enter "en") port.enable port.clock stages
  let (address, draft) ← delay draft (scope.enter "addr") port.address port.clock stages
  let word ← slot storage address
  return (⟨.cond enable.expr word (.x storage.width), storage.width⟩, draft)

def connectWrite (port : WritePort) (scope : Scope) (storage : Storage) (stages : Nat)
    (draft : ModuleDraft) : Except Breach ModuleDraft := do
  let (enable, draft) ← delay draft (scope.enter "en") port.enable port.clock stages
  let (address, draft) ← delay draft (scope.enter "addr") port.address port.clock stages
  let (mask, draft) ← delay draft (scope.enter "mask") port.mask port.clock stages
  let (data, draft) ← delay draft (scope.enter "data") port.data port.clock stages
  let word ← slot storage address
  clocked draft port.clock
    [.openIf (.combine .and enable.expr mask.expr),
      .nonblocking word data.expr,
      .closeIf]

def connectReadWrite (port : ReadWritePort) (scope : Scope) (storage : Storage) (stages : Nat)
    (draft : ModuleDraft) : Except Breach (Signal × ModuleDraft) := do
  let (enable, draft) ← delay draft (scope.enter "en") port.enable port.clock stages
  let (address, draft) ← delay draft (scope.enter "addr") port.address port.clock stages
  let (mode, draft) ← delay draft (scope.enter "wmode") port.mode port.clock stages
  let (mask, draft) ← delay draft (scope.enter "wmask") port.mask port.clock stages
  let (data, draft) ← delay draft (scope.enter "wdata") port.data port.clock stages
  let (writes, draft) := draft.declareNet scope "wcond"
    (.combine .and enable.expr (.combine .and mask.expr mode.expr)) 1
  let (reads, draft) := draft.declareNet scope "rcond"
    (.combine .and enable.expr (.combine .equal mode.expr (.constant 1 0))) 1
  let (held, draft) := draft.declareReg scope "rdata_hold" storage.width
  let read ← slot storage address
  let draft ← combinational draft
    [.blocking held.expr (.x storage.width),
      .openIf writes.expr,
      .openElse,
      .openIf reads.expr,
      .blocking held.expr read,
      .closeIf,
      .closeIf]
  let written ← slot storage address
  let draft ← clocked draft port.clock
    [.openIf writes.expr,
      .nonblocking written data.expr,
      .closeIf]
  return (held, draft)

/-- Connects ports of one kind, each in a section and a scope of its own. -/
def connectAll {α β : Type} (title : String) (kind : PortKind) (scope : Scope)
    (connect : α → Scope → ModuleDraft → Except Breach (β × ModuleDraft)) :
    Nat → List α → ModuleDraft → Except Breach (List β × ModuleDraft)
  | _, [], draft => .ok ([], draft)
  | index, port :: rest, draft => do
      let name := kind.portName index
      let draft := draft.enterSection (title ++ " " ++ name)
      let (value, draft) ← connect port (scope.enter name) draft
      let draft ← draft.leaveSection
      let (values, draft) ← connectAll title kind scope connect (index + 1) rest draft
      return (value :: values, draft)

/-- Builds the storage and the logic of the ports, and gives the values of the outputs. -/
def assemble (scope : Scope) (descriptor : Descriptor) (options : LoweringOptions)
    (interface : Interface) (draft : ModuleDraft) : Except Breach (List Signal × ModuleDraft) := do
  let (storage, draft) :=
    draft.declareStorage scope options.storageName descriptor.dataWidth descriptor.depth
  let readStages := descriptor.readStages
  let readWriteStages := descriptor.readWriteStages?.getD 0
  let writeStages := descriptor.writeStages?.getD 0
  let (reads, draft) ← connectAll "Read port" .read scope
    (fun port scope draft => connectRead port scope storage readStages draft) 0
    interface.read draft
  let (readWrites, draft) ← connectAll "Read-write port" .readWrite scope
    (fun port scope draft => connectReadWrite port scope storage readWriteStages draft) 0
    interface.readWrite draft
  let (_, draft) ← connectAll "Write port" .write scope
    (fun port scope draft =>
      return ((), ← connectWrite port scope storage writeStages draft)) 0
    interface.write draft
  return (reads ++ readWrites, draft)

def lower (scope : Scope) (name : String) (ports : List Port) (descriptor : Descriptor)
    (options : LoweringOptions) : Except LoweringError Module := do
  match descriptor.validate with
  | .error fault => throw (.invalidDescriptor fault)
  | .ok () =>
      let draft := ModuleDraft.start name ports
      let interface ← ofSignals descriptor draft.inputs
      checkOutputs descriptor draft.outputs
      let (values, draft) ← liftBreach (assemble scope descriptor options interface draft)
      let draft ← liftDraft (draft.driveOutputs values)
      liftBreach draft.finish

/-- The signals that are counted off for a port make one up, the one that is taken by pattern. -/
def Splits {α : Type} (kind : PortKind) (port : List Signal → Except Breach α)
    (take? : List Signal → Option (α × List Signal)) : Prop :=
  ∀ signals, if kind.arity ≤ signals.length then
      ∃ taken, port (signals.take kind.arity) = .ok taken ∧
        take? signals = some (taken, signals.drop kind.arity)
    else take? signals = none

theorem Splits.length_lt {α : Type} {kind : PortKind} {port : List Signal → Except Breach α}
    {take? : List Signal → Option (α × List Signal)} (splits : Splits kind port take?)
    {signals : List Signal} (exhausted : take? signals = none) : signals.length < kind.arity := by
  have whole := splits signals
  by_cases enough : kind.arity ≤ signals.length
  · rw [if_pos enough] at whole
    obtain ⟨taken, -, found⟩ := whole
    rw [exhausted] at found
    cases found
  · exact Nat.lt_of_not_le enough

theorem splits_readPort : Splits .read readPort ReadPort.take? := by
  rintro (_ | ⟨clock, _ | ⟨enable, _ | ⟨address, rest⟩⟩⟩)
  case cons.cons.cons =>
    rw [if_pos (by simp)]
    exact ⟨⟨clock, enable, address⟩, rfl, rfl⟩
  all_goals rfl

theorem splits_writePort : Splits .write writePort WritePort.take? := by
  rintro (_ | ⟨clock, _ | ⟨enable, _ | ⟨address, _ | ⟨mask, _ | ⟨data, rest⟩⟩⟩⟩⟩)
  case cons.cons.cons.cons.cons =>
    rw [if_pos (by simp)]
    exact ⟨⟨clock, enable, address, mask, data⟩, rfl, rfl⟩
  all_goals rfl

theorem splits_readWritePort : Splits .readWrite readWritePort ReadWritePort.take? := by
  rintro
    (_ | ⟨clock, _ | ⟨enable, _ | ⟨address, _ | ⟨mode, _ | ⟨mask, _ | ⟨data, rest⟩⟩⟩⟩⟩⟩)
  case cons.cons.cons.cons.cons.cons =>
    rw [if_pos (by simp)]
    exact ⟨⟨clock, enable, address, mode, mask, data⟩, rfl, rfl⟩
  all_goals rfl

private theorem zip_take_length (inputs : List PortInput) (signals : List Signal) :
    inputs.zip (signals.take inputs.length) = inputs.zip signals := by
  induction inputs generalizing signals with
  | nil => rfl
  | cons input rest ih =>
    cases signals with
    | nil => rfl
    | cons signal signals => simp [ih]

theorem takePorts_eq {α : Type} (descriptor : Descriptor) {kind : PortKind}
    {port : List Signal → Except Breach α} {take? : List Signal → Option (α × List Signal)}
    (splits : Splits kind port take?) (count index : Nat) (signals : List Signal) :
    takePorts descriptor kind port count index signals =
      Memory.takePorts descriptor kind take? count index signals := by
  induction count generalizing index signals with
  | zero => rfl
  | succ count ih =>
    have whole := splits signals
    rw [takePorts, Memory.takePorts]
    by_cases enough : kind.arity ≤ signals.length
    · rw [if_pos enough] at whole
      obtain ⟨first, made, taken⟩ := whole
      have counted : (signals.take kind.arity).length = kind.arity :=
        List.length_take_of_le enough
      have paired : kind.inputs.zip (signals.take kind.arity) = kind.inputs.zip signals :=
        zip_take_length kind.inputs signals
      simp only [counted, made, taken, paired, ih, liftBreach, ne_eq, not_true_eq_false,
        ↓reduceIte, ok_bind]
    · rw [if_neg enough] at whole
      have counted : (signals.take kind.arity).length ≠ kind.arity := by
        rw [List.length_take]
        omega
      rw [whole, if_pos counted]
      rfl

theorem ofSignals_eq (descriptor : Descriptor) (signals : List Signal) :
    ofSignals descriptor signals = Interface.ofSignals descriptor signals := by
  rw [ofSignals, Interface.ofSignals]
  split
  · rfl
  · rename_i counted
    simp only [takePorts_eq descriptor splits_readPort, takePorts_eq descriptor splits_writePort,
      takePorts_eq descriptor splits_readWritePort]
    cases readTaken : Memory.takePorts descriptor .read ReadPort.take? descriptor.readPorts 0
        signals with
    | error fault => rfl
    | ok read =>
    cases readWriteTaken : Memory.takePorts descriptor .readWrite ReadWritePort.take?
        descriptor.readWritePorts 0 read.2 with
    | error fault => simp only [ok_bind, readWriteTaken, error_bind]
    | ok readWrite =>
    cases writeTaken : Memory.takePorts descriptor .write WritePort.take? descriptor.writePorts 0
        readWrite.2 with
    | error fault => simp only [ok_bind, readWriteTaken, writeTaken, error_bind]
    | ok write =>
      -- The ports use up the signals, so the last check is passed.
      have enough := Descriptor.le_inputCount_of_eq_expectedCount (Decidable.not_not.mp counted)
      have nothing : write.2 = [] := eq_nil_of_takePorts enough readTaken readWriteTaken writeTaken
      simp [ok_bind, readWriteTaken, writeTaken, nothing]

@[simp] theorem slot_eq (storage : Storage) (address : Signal) :
    slot storage address = .ok (storage.slot address) := rfl

@[simp] theorem delay_eq (draft : ModuleDraft) (scope : Scope) (signal clock : Signal)
    (stages : Nat) : delay draft scope signal clock stages =
      .ok (draft.delay scope signal clock stages) := by
  induction stages with
  | zero => rfl
  | succ stages ih =>
    rw [delay, ih]
    rfl

theorem connectRead_eq (port : ReadPort) (scope : Scope) (storage : Storage) (stages : Nat)
    (draft : ModuleDraft) : connectRead port scope storage stages draft =
      .ok (port.connect scope storage stages draft) := by
  simp only [connectRead, delay_eq, slot_eq, ok_bind]
  rfl

theorem connectWrite_eq (port : WritePort) (scope : Scope) (storage : Storage) (stages : Nat)
    (draft : ModuleDraft) : connectWrite port scope storage stages draft =
      .ok (port.connect scope storage stages draft) := by
  simp only [connectWrite, delay_eq, slot_eq, ok_bind]
  rfl

/-- The conditionals of the two blocks are closed in the order in which they are opened. -/
theorem connectReadWrite_eq (port : ReadWritePort) (scope : Scope) (storage : Storage)
    (stages : Nat) (draft : ModuleDraft) : connectReadWrite port scope storage stages draft =
      .ok (port.connect scope storage stages draft) := by
  simp only [connectReadWrite, delay_eq, slot_eq, ok_bind]
  rfl

/-- Ports that are each connected without refusal are so one after another. -/
theorem connectAll_eq {α β : Type} (title : String) (kind : PortKind) (scope : Scope)
    {steps : α → Scope → ModuleDraft → Except Breach (β × ModuleDraft)}
    {connect : α → Scope → ModuleDraft → β × ModuleDraft}
    (each : ∀ port scope draft, steps port scope draft = .ok (connect port scope draft))
    (index : Nat) (ports : List α) (draft : ModuleDraft) :
    connectAll title kind scope steps index ports draft =
      Memory.connectAll title kind scope connect index ports draft := by
  induction ports generalizing index draft with
  | nil => rfl
  | cons port rest ih => simp only [connectAll, Memory.connectAll, each, ih, ok_bind]

theorem assemble_eq (scope : Scope) (descriptor : Descriptor) (options : LoweringOptions)
    (interface : Interface) (draft : ModuleDraft) :
    assemble scope descriptor options interface draft =
      Memory.assemble scope descriptor options interface draft := by
  have write : ∀ (storage : Storage) (stages : Nat) (port : WritePort) (scope : Scope)
      (draft : ModuleDraft),
      (return ((), ← connectWrite port scope storage stages draft) : Except Breach _) =
        .ok ((), port.connect scope storage stages draft) := by
    intro storage stages port scope draft
    rw [connectWrite_eq]
    rfl
  rw [assemble, Memory.assemble]
  simp only [connectAll_eq "Read port" .read scope
      fun port scope draft => connectRead_eq port scope _ _ draft,
    connectAll_eq "Read-write port" .readWrite scope
      fun port scope draft => connectReadWrite_eq port scope _ _ draft,
    connectAll_eq "Write port" .write scope (write _ _)]

/-- Lowering answers the same whether the contracts are checked or not. -/
theorem lower_eq (scope : Scope) (name : String) (ports : List Port) (descriptor : Descriptor)
    (options : LoweringOptions) : lower scope name ports descriptor options =
      Memory.lower scope name ports descriptor options := by
  rw [lower, Memory.lower]
  cases descriptor.validate with
  | error fault => rfl
  | ok done => simp only [ofSignals_eq, assemble_eq]

end Multiport.Memory.Stepwise
