import Multiport.Memory.AddressWidth
import Multiport.Memory.Error
import Multiport.Memory.PortKind
import Multiport.Netlist.Declaration

/-! Memory descriptors: how many ports of each kind, how many words of how many bits, and how many
cycles a read and a write take. A descriptor determines the ports of the module that holds the
memory, and `Descriptor.validate` says which descriptors describe one. -/
namespace Multiport.Memory

/-- What a read sees of a write to the same word in the same cycle. -/
inductive CollisionPolicy where
  | undefined
  | old
  | new
deriving DecidableEq, Repr

namespace CollisionPolicy

/-- The number that stands for a policy. -/
def code : CollisionPolicy → Int
  | undefined => 0
  | old => 1
  | new => 2

/-- The policy that a number stands for. -/
def ofCode (code : Int) : Except AttributeFault CollisionPolicy :=
  if code = 0 then .ok undefined
  else if code = 1 then .ok old
  else if code = 2 then .ok new
  else .error (.unknownPolicy code)

theorem ofCode_code (policy : CollisionPolicy) : ofCode policy.code = .ok policy := by
  cases policy <;> rfl

theorem ofCode_eq_ok_iff {code : Int} {policy : CollisionPolicy} :
    ofCode code = .ok policy ↔ code = policy.code := by
  constructor
  · intro found
    unfold ofCode at found
    split at found
    · cases found; assumption
    · split at found
      · cases found; assumption
      · split at found
        · cases found; assumption
        · cases found
  · rintro rfl
    exact ofCode_code policy

end CollisionPolicy

/-- How many numbers a word can hold. -/
def wordRange : Nat := 18446744073709551616

/-- A memory with several ports. -/
structure Descriptor where
  readPorts : Nat
  writePorts : Nat
  readWritePorts : Nat
  dataWidth : Nat
  depth : Nat
  readLatency : Nat
  writeLatency : Nat
  policy : CollisionPolicy
deriving DecidableEq, Repr

namespace Descriptor

/-- A memory without ports, whose reads take no cycle and whose writes take one. -/
def ofSize (dataWidth depth : Nat) : Descriptor := ⟨0, 0, 0, dataWidth, depth, 0, 1, .undefined⟩

def withPorts (descriptor : Descriptor) (read write readWrite : Nat) : Descriptor :=
  { descriptor with readPorts := read, writePorts := write, readWritePorts := readWrite }

def withLatency (descriptor : Descriptor) (read write : Nat) : Descriptor :=
  { descriptor with readLatency := read, writeLatency := write }

def withPolicy (descriptor : Descriptor) (policy : CollisionPolicy) : Descriptor :=
  { descriptor with policy := policy }

def count (descriptor : Descriptor) : PortKind → Nat
  | .read => descriptor.readPorts
  | .write => descriptor.writePorts
  | .readWrite => descriptor.readWritePorts

/-- The number less one, of a positive number. -/
def pred? : Nat → Option Nat
  | 0 => none
  | n + 1 => some n

/-- Registers between the inputs of a read port and the storage. -/
def readStages (descriptor : Descriptor) : Nat := descriptor.readLatency

/-- Registers between the inputs of a write port and the storage, whose own edge is the last. -/
def writeStages? (descriptor : Descriptor) : Option Nat := pred? descriptor.writeLatency

/-- Registers between the inputs of a read-write port and the storage. -/
def readWriteStages? (descriptor : Descriptor) : Option Nat :=
  pred? (max descriptor.readLatency descriptor.writeLatency)

/-- How many input signals the ports take together. -/
def inputCount (descriptor : Descriptor) : Nat :=
  descriptor.readPorts * PortKind.read.arity +
    descriptor.readWritePorts * PortKind.readWrite.arity +
    descriptor.writePorts * PortKind.write.arity

/-- The number of input signals as a word holds it, which cuts a greater one to its remainder. -/
def inputWord (descriptor : Descriptor) : Nat := descriptor.inputCount % wordRange

/-- The number of signals that is expected of a list of the given length. Lists are counted in
words, and only one that is too long for a word is held against the number itself. -/
def expectedCount (descriptor : Descriptor) (length : Nat) : Nat :=
  if length < wordRange then descriptor.inputWord else descriptor.inputCount

/-- How many output signals the ports give together. -/
def outputCount (descriptor : Descriptor) : Nat := descriptor.readPorts + descriptor.readWritePorts

/-- The width of an input signal by what it is for. -/
def inputWidth (descriptor : Descriptor) : InputRole → Nat
  | .address => addressWidth descriptor.depth
  | .writeData => descriptor.dataWidth
  | .clock | .enable | .writeMode | .writeMask => 1

/-- Finds what keeps a descriptor from describing a memory, in a fixed order. -/
def validate (descriptor : Descriptor) : Except DescriptorFault Unit :=
  if descriptor.dataWidth = 0 then .error .zeroWidth
  else if descriptor.depth = 0 then .error .zeroDepth
  else if maxLatency < descriptor.readLatency then
    .error (.longReadLatency descriptor.readLatency)
  else if maxLatency < descriptor.writeLatency then
    .error (.longWriteLatency descriptor.writeLatency)
  else if 0 < descriptor.writePorts ∧ descriptor.writeLatency = 0 then .error .writeWithoutLatency
  else if 0 < descriptor.readWritePorts ∧
      max descriptor.readLatency descriptor.writeLatency = 0 then
    .error .readWriteWithoutLatency
  else .ok ()

/-- The input ports for one memory port. -/
def portInputs (descriptor : Descriptor) (kind : PortKind) (index : Nat) : List Port :=
  kind.inputs.map fun input =>
    .input (descriptor.inputWidth input.role) (kind.portName index ++ "_" ++ input.name)

/-- The output port for one memory port, if it has one. -/
def portOutputs (descriptor : Descriptor) (kind : PortKind) (index : Nat) : List Port :=
  kind.outputName?.toList.map fun name =>
    .output descriptor.dataWidth (kind.portName index ++ "_" ++ name)

/-- The order in which the kinds of port appear among the ports of a module. -/
def kindOrder : List PortKind := [.read, .readWrite, .write]

/-- The ports of the module that holds the memory: all inputs, then all outputs. -/
def ports (descriptor : Descriptor) : List Port :=
  let each (part : PortKind → Nat → List Port) : List Port :=
    kindOrder.flatMap fun kind => (List.range (descriptor.count kind)).flatMap (part kind)
  each descriptor.portInputs ++ each descriptor.portOutputs

theorem inputCount_eq (descriptor : Descriptor) :
    descriptor.inputCount =
      3 * descriptor.readPorts + 6 * descriptor.readWritePorts + 5 * descriptor.writePorts := by
  simp only [inputCount, PortKind.arity_read, PortKind.arity_readWrite, PortKind.arity_write]
  omega

theorem inputWord_of_lt {descriptor : Descriptor}
    (fits : descriptor.inputCount < wordRange) :
    descriptor.inputWord = descriptor.inputCount := Nat.mod_eq_of_lt fits

theorem expectedCount_of_lt {descriptor : Descriptor}
    (fits : descriptor.inputCount < wordRange) (length : Nat) :
    descriptor.expectedCount length = descriptor.inputCount := by
  rw [expectedCount, inputWord_of_lt fits, ite_self]

theorem expectedCount_inputCount (descriptor : Descriptor) :
    descriptor.expectedCount descriptor.inputCount = descriptor.inputCount := by
  unfold expectedCount
  split
  · rename_i fits
    exact inputWord_of_lt fits
  · rfl

theorem le_inputCount_of_eq_expectedCount {descriptor : Descriptor} {length : Nat}
    (counted : length = descriptor.expectedCount length) : length ≤ descriptor.inputCount := by
  have bound : descriptor.expectedCount length ≤ descriptor.inputCount := by
    unfold expectedCount
    split
    · exact Nat.mod_le _ _
    · exact Nat.le_refl _
  exact Nat.le_trans (Nat.le_of_eq counted) bound

/-- A descriptor passes exactly if its size is positive, its latencies are in range, and every kind
of port that writes has an edge to write at. -/
theorem validate_eq_ok_iff {descriptor : Descriptor} :
    descriptor.validate = .ok () ↔
      0 < descriptor.dataWidth ∧ 0 < descriptor.depth ∧
        descriptor.readLatency ≤ maxLatency ∧ descriptor.writeLatency ≤ maxLatency ∧
        (0 < descriptor.writePorts → 0 < descriptor.writeLatency) ∧
        (0 < descriptor.readWritePorts →
          0 < max descriptor.readLatency descriptor.writeLatency) := by
  unfold validate
  repeat' split
  all_goals simp only [reduceCtorEq, false_iff, true_iff]
  all_goals omega

end Descriptor
end Multiport.Memory
