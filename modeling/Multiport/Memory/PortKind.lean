namespace Multiport.Memory

/-- What an input signal of a port is for. -/
inductive InputRole where
  | clock
  | enable
  | address
  | writeMode
  | writeMask
  | writeData
deriving DecidableEq, Repr

/-- An input signal of a port: what it is for and its name within the port. -/
structure PortInput where
  role : InputRole
  name : String
deriving DecidableEq, Repr

/-- What a port can do in one cycle. -/
inductive PortKind where
  | read
  | write
  | readWrite
deriving DecidableEq, Repr

namespace PortKind

/-- The input signals of a port, in order. -/
def inputs : PortKind → List PortInput
  | read => [⟨.clock, "clk"⟩, ⟨.enable, "en"⟩, ⟨.address, "addr"⟩]
  | write =>
      [⟨.clock, "clk"⟩, ⟨.enable, "en"⟩, ⟨.address, "addr"⟩, ⟨.writeMask, "mask"⟩,
        ⟨.writeData, "data"⟩]
  | readWrite =>
      [⟨.clock, "clk"⟩, ⟨.enable, "en"⟩, ⟨.address, "addr"⟩, ⟨.writeMode, "wmode"⟩,
        ⟨.writeMask, "wmask"⟩, ⟨.writeData, "wdata"⟩]

/-- The number of input signals of a port. -/
def arity (kind : PortKind) : Nat := kind.inputs.length

/-- The letters that start the name of a port. -/
def letters : PortKind → String
  | read => "R"
  | write => "W"
  | readWrite => "RW"

/-- The name of a port, by its place among the ports of its kind. -/
def portName (kind : PortKind) (index : Nat) : String := kind.letters ++ toString index

/-- The name of the output within the port; a write port has none. -/
def outputName? : PortKind → Option String
  | read => some "data"
  | write => none
  | readWrite => some "rdata"

@[simp] theorem arity_read : arity read = 3 := rfl

@[simp] theorem arity_write : arity write = 5 := rfl

@[simp] theorem arity_readWrite : arity readWrite = 6 := rfl

end PortKind
end Multiport.Memory
