import Multiport.Draft.Signal
import Multiport.Memory.Descriptor

/-! The input signals of a memory, taken apart into its ports. The signals are consumed from the
left: first those of the read ports, then of the read-write ports, then of the write ports, each
port taking its inputs in order. -/
namespace Multiport.Memory

/-- The inputs of a read port. -/
structure ReadPort where
  clock : Signal
  enable : Signal
  address : Signal
deriving DecidableEq, Repr

/-- The inputs of a write port. -/
structure WritePort where
  clock : Signal
  enable : Signal
  address : Signal
  mask : Signal
  data : Signal
deriving DecidableEq, Repr

/-- The inputs of a port that reads or writes. -/
structure ReadWritePort where
  clock : Signal
  enable : Signal
  address : Signal
  mode : Signal
  mask : Signal
  data : Signal
deriving DecidableEq, Repr

/-- The ports of a memory by kind. -/
structure Interface where
  read : List ReadPort
  readWrite : List ReadWritePort
  write : List WritePort
deriving DecidableEq, Repr

/-- Splits the inputs of a read port from a list of signals. -/
def ReadPort.take? : List Signal → Option (ReadPort × List Signal)
  | clock :: enable :: address :: rest => some (⟨clock, enable, address⟩, rest)
  | _ => none

/-- Splits the inputs of a write port from a list of signals. -/
def WritePort.take? : List Signal → Option (WritePort × List Signal)
  | clock :: enable :: address :: mask :: data :: rest =>
      some (⟨clock, enable, address, mask, data⟩, rest)
  | _ => none

/-- Splits the inputs of a read-write port from a list of signals. -/
def ReadWritePort.take? : List Signal → Option (ReadWritePort × List Signal)
  | clock :: enable :: address :: mode :: mask :: data :: rest =>
      some (⟨clock, enable, address, mode, mask, data⟩, rest)
  | _ => none

/-- Checks the widths of the signals given for inputs. An address may have any width, since an
address out of range reads as unknown and writes nothing. -/
def checkWidths (descriptor : Descriptor) (port : String) :
    List (PortInput × Signal) → Except LoweringError Unit
  | [] => .ok ()
  | (input, signal) :: rest =>
      if input.role ≠ .address ∧ signal.width ≠ descriptor.inputWidth input.role then
        .error (.signalWidth port input.name (descriptor.inputWidth input.role) signal.width)
      else checkWidths descriptor port rest

/-- Takes a number of ports of one kind from a list of signals, the first of them having the given
place among its kind. Answers the ports and the signals left over. -/
def takePorts {α : Type} (descriptor : Descriptor) (kind : PortKind)
    (take? : List Signal → Option (α × List Signal)) :
    Nat → Nat → List Signal → Except LoweringError (List α × List Signal)
  | 0, _, signals => .ok ([], signals)
  | count + 1, index, signals => do
      match take? signals with
      | none => throw (.breach .signalsExhausted)
      | some (port, rest) =>
          checkWidths descriptor (kind.portName index) (kind.inputs.zip signals)
          let (ports, rest) ← takePorts descriptor kind take? count (index + 1) rest
          return (port :: ports, rest)

/-- Takes the input signals of a memory apart into its ports. -/
def Interface.ofSignals (descriptor : Descriptor) (signals : List Signal) :
    Except LoweringError Interface := do
  if signals.length ≠ descriptor.expectedCount signals.length then
    throw (.signalCount (descriptor.expectedCount signals.length) signals.length)
  let (read, signals) ←
    takePorts descriptor .read ReadPort.take? descriptor.readPorts 0 signals
  let (readWrite, signals) ←
    takePorts descriptor .readWrite ReadWritePort.take? descriptor.readWritePorts 0 signals
  let (write, _) ← takePorts descriptor .write WritePort.take? descriptor.writePorts 0 signals
  return ⟨read, readWrite, write⟩

def ReadPort.signals (port : ReadPort) : List Signal := [port.clock, port.enable, port.address]

/-- The inputs of a write port in order. -/
def WritePort.signals (port : WritePort) : List Signal :=
  [port.clock, port.enable, port.address, port.mask, port.data]

/-- The inputs of a read-write port in order. -/
def ReadWritePort.signals (port : ReadWritePort) : List Signal :=
  [port.clock, port.enable, port.address, port.mode, port.mask, port.data]

theorem ReadPort.take?_eq_some_iff {signals rest : List Signal} {port : ReadPort} :
    take? signals = some (port, rest) ↔ signals = port.signals ++ rest := by
  constructor
  · intro taken
    unfold take? at taken
    split at taken
    · cases taken; rfl
    · cases taken
  · rintro rfl
    rfl

theorem WritePort.take?_eq_some_iff {signals rest : List Signal} {port : WritePort} :
    take? signals = some (port, rest) ↔ signals = port.signals ++ rest := by
  constructor
  · intro taken
    unfold take? at taken
    split at taken
    · cases taken; rfl
    · cases taken
  · rintro rfl
    rfl

theorem ReadWritePort.take?_eq_some_iff {signals rest : List Signal} {port : ReadWritePort} :
    take? signals = some (port, rest) ↔ signals = port.signals ++ rest := by
  constructor
  · intro taken
    unfold take? at taken
    split at taken
    · cases taken; rfl
    · cases taken
  · rintro rfl
    rfl

end Multiport.Memory
