import Multiport.Attribute
import Multiport.Memory.Descriptor

namespace Multiport.Memory

/-- What the attributes of a memory give. -/
inductive Parameter where
  | readPorts
  | writePorts
  | readWritePorts
  | dataWidth
  | depth
  | readLatency
  | writeLatency
  | policy
deriving DecidableEq, Repr

namespace Parameter

/-- The attributes in the order in which they are written. -/
def all : List Parameter :=
  [readPorts, writePorts, readWritePorts, dataWidth, depth, readLatency, writeLatency, policy]

def name : Parameter → String
  | readPorts => "numReadPorts"
  | writePorts => "numWritePorts"
  | readWritePorts => "numReadWritePorts"
  | dataWidth => "width"
  | depth => "depth"
  | readLatency => "readLatency"
  | writeLatency => "writeLatency"
  | policy => "readUnderWrite"

theorem name_injective {first second : Parameter} (same : first.name = second.name) :
    first = second := by
  revert same
  cases first <;> cases second <;> decide

/-- What a descriptor writes for an attribute. -/
def value (descriptor : Descriptor) : Parameter → Attribute
  | readPorts => .ofNat descriptor.readPorts
  | writePorts => .ofNat descriptor.writePorts
  | readWritePorts => .ofNat descriptor.readWritePorts
  | dataWidth => .ofNat descriptor.dataWidth
  | depth => .ofNat descriptor.depth
  | readLatency => .ofNat descriptor.readLatency
  | writeLatency => .ofNat descriptor.writeLatency
  | policy => .int descriptor.policy.code

/-- Reads an attribute of a module as an integer. -/
def readInt (module : String) (attributes : Attributes) (parameter : Parameter) :
    Except LoweringError Int :=
  match attributes.get? parameter.name with
  | some (.int value) => .ok value
  | some (.text _) => .error (.invalidAttribute module parameter.name .notInteger)
  | none => .error (.missingAttribute module parameter.name)

/-- Reads an attribute of a module as a number that is not negative. -/
def readNat (module : String) (attributes : Attributes) (parameter : Parameter) :
    Except LoweringError Nat := do
  match ← readInt module attributes parameter with
  | .ofNat value => return value
  | .negSucc value => throw (.invalidAttribute module parameter.name (.negative (.negSucc value)))

/-- Reads the policy attribute of a module. -/
def readPolicy (module : String) (attributes : Attributes) :
    Except LoweringError CollisionPolicy := do
  match CollisionPolicy.ofCode (← readInt module attributes policy) with
  | .ok value => return value
  | .error fault => throw (.invalidAttribute module policy.name fault)

end Parameter

namespace Descriptor

/-- The attributes that spell a descriptor. -/
def toAttributes (descriptor : Descriptor) : Attributes :=
  Table.ofList (Parameter.all.map fun parameter => (parameter.name, parameter.value descriptor))

/-- The descriptor that the attributes of a module spell. -/
def ofAttributes (module : String) (attributes : Attributes) : Except LoweringError Descriptor := do
  let policy ← Parameter.readPolicy module attributes
  let readPorts ← Parameter.readPorts.readNat module attributes
  let writePorts ← Parameter.writePorts.readNat module attributes
  let readWritePorts ← Parameter.readWritePorts.readNat module attributes
  let dataWidth ← Parameter.dataWidth.readNat module attributes
  let depth ← Parameter.depth.readNat module attributes
  let readLatency ← Parameter.readLatency.readNat module attributes
  let writeLatency ← Parameter.writeLatency.readNat module attributes
  let descriptor : Descriptor :=
    ⟨readPorts, writePorts, readWritePorts, dataWidth, depth, readLatency, writeLatency, policy⟩
  match descriptor.validate with
  | .ok () => return descriptor
  | .error fault => throw (.invalidDescriptor fault)

end Descriptor
end Multiport.Memory
