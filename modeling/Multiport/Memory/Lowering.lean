import Multiport.Memory.PortLogic

/-! Lowering a memory: the module with the given ports that behaves as a descriptor says. Every
fault of the descriptor or the ports is found before anything is built. -/
namespace Multiport.Memory

/-- The tag of the descriptors of memories. -/
def memoryTag : String := "FIRRTL_Memory"

/-- What can be chosen about the lowering of memories. -/
structure LoweringOptions where
  tag : String
  storageName : String
deriving DecidableEq, Repr

def LoweringOptions.standard : LoweringOptions := ⟨memoryTag, "Memory"⟩

/-- Turns the refusal of a step into an error of the lowering. -/
def liftBreach {α : Type} : Except Breach α → Except LoweringError α
  | .ok value => .ok value
  | .error breach => .error (.breach breach)

/-- Turns an error about outputs into an error of the lowering. -/
def liftDraft {α : Type} : Except DraftError α → Except LoweringError α
  | .ok value => .ok value
  | .error error => .error (.draft error)

/-- Finds the first output port that does not have the width of the data. -/
def checkOutputs (descriptor : Descriptor) (outputs : List Port) : Except LoweringError Unit :=
  if outputs.length ≠ descriptor.outputCount then
    .error (.outputCount descriptor.outputCount outputs.length)
  else
    match outputs.find? fun port => port.width ≠ descriptor.dataWidth with
    | some port => .error (.draft (.outputWidth port.name port.width descriptor.dataWidth))
    | none => .ok ()

/-- Connects ports of one kind, each in a section and a scope of its own, the first of them having
the given place among its kind. Answers what each connection answers. -/
def connectAll {α β : Type} (title : String) (kind : PortKind) (scope : Scope)
    (connect : α → Scope → ModuleDraft → β × ModuleDraft) :
    Nat → List α → ModuleDraft → Except Breach (List β × ModuleDraft)
  | _, [], draft => .ok ([], draft)
  | index, port :: rest, draft => do
      let name := kind.portName index
      let draft := draft.enterSection (title ++ " " ++ name)
      let (value, draft) := connect port (scope.enter name) draft
      let draft ← draft.leaveSection
      let (values, draft) ← connectAll title kind scope connect (index + 1) rest draft
      return (value :: values, draft)

/-- Builds the storage and the logic of the ports, and gives the values of the outputs. -/
def assemble (scope : Scope) (descriptor : Descriptor) (options : LoweringOptions)
    (interface : Interface) (draft : ModuleDraft) : Except Breach (List Signal × ModuleDraft) := do
  let (storage, draft) :=
    draft.declareStorage scope options.storageName descriptor.dataWidth descriptor.depth
  let readStages := descriptor.readStages
  let readWriteStages := descriptor.readWriteStages?.getD 0
  let writeStages := descriptor.writeStages?.getD 0
  let (reads, draft) ← connectAll "Read port" .read scope
    (fun port scope draft => port.connect scope storage readStages draft) 0 interface.read draft
  let (readWrites, draft) ← connectAll "Read-write port" .readWrite scope
    (fun port scope draft => port.connect scope storage readWriteStages draft) 0
    interface.readWrite draft
  let (_, draft) ← connectAll "Write port" .write scope
    (fun port scope draft => ((), port.connect scope storage writeStages draft)) 0
    interface.write draft
  return (reads ++ readWrites, draft)

/-- The module that behaves as a memory. -/
def lower (scope : Scope) (name : String) (ports : List Port) (descriptor : Descriptor)
    (options : LoweringOptions) : Except LoweringError Module := do
  match descriptor.validate with
  | .error fault => throw (.invalidDescriptor fault)
  | .ok () =>
      let draft := ModuleDraft.start name ports
      let interface ← Interface.ofSignals descriptor draft.inputs
      checkOutputs descriptor draft.outputs
      let (values, draft) ← liftBreach (assemble scope descriptor options interface draft)
      let draft ← liftDraft (draft.driveOutputs values)
      liftBreach draft.finish

end Multiport.Memory
