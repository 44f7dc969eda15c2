import Multiport.Design.Emission
import Multiport.Design.Pass

namespace Multiport.Demo

open Memory (Descriptor)

def generator : String := "FIRRTLMem"

def memories : List (String × Descriptor) :=
  [("scratchpad", ((Descriptor.ofSize 8 4).withPorts 1 1 0).withLatency 1 1),
    ("regfile", ((Descriptor.ofSize 32 32).withPorts 2 1 0).withLatency 0 1),
    ("sram", (((Descriptor.ofSize 64 1024).withPorts 0 0 1).withLatency 2 1).withPolicy .old),
    ("pipelined_buffer", ((Descriptor.ofSize 16 256).withPorts 1 1 1).withLatency 3 2),
    ("blackhole", Descriptor.ofSize 8 1)]

/-- Adds memories to a design, up to the first that is refused. -/
def addMemories (design : Design) : List (String × Descriptor) → DesignResult Unit
  | [] => (.ok (), design)
  | (name, descriptor) :: rest =>
      match design.addModule (.generated (descriptor.toBlueprint name generator)) with
      | (.ok (), design) => addMemories design rest
      | failed => failed

def design : DesignResult Unit :=
  match Design.empty.addSchema (.memory generator) with
  | (.ok (), design) => addMemories design memories
  | failed => failed

/-- The design with its memories lowered. -/
def lowered : DesignResult (List String) :=
  match design with
  | (.ok (), design) => LoweringPass.standard.run design
  | (.error error, design) => (.error error, design)

end Multiport.Demo
