import Multiport.Netlist.Expr

namespace Multiport

/-- What a module may contain but a simulator does not run. -/
inductive Construct where
  | declaration (name : String)
  | assignment (target : Expr)
  | clock (expr : Expr)
  | operandWidths (expr : Expr)
  | branchWidths (expr : Expr)
  | blockingWhenClocked
  | nonblockingWhenCombinational
deriving DecidableEq, Repr

/-- The words for a construct that is not run. -/
def Construct.describe : Construct → String
  | declaration name => "declaration of `" ++ name ++ "`"
  | assignment target => "assignment to `" ++ target.render ++ "`"
  | clock expr => "clock expression `" ++ expr.render ++ "`"
  | operandWidths expr => "`" ++ expr.render ++ "` on operands of different widths"
  | branchWidths expr => "`" ++ expr.render ++ "` with branches of different widths"
  | blockingWhenClocked => "blocking assignment in a clocked block"
  | nonblockingWhenCombinational => "nonblocking assignment in a combinational block"

/-- Why a simulator does not do what it is asked. -/
inductive SimulationError where
  | unknownSignal (name : String)
  | notAnInput (name : String)
  | unknownMemory (name : String)
  | addressOutOfRange (memory : String) (address depth : Nat)
  | unsupported (construct : Construct)
  | combinationalLoop (name : String)
deriving DecidableEq, Repr

def SimulationError.message : SimulationError → String
  | unknownSignal name => "unknown signal `" ++ name ++ "`"
  | notAnInput name => "`" ++ name ++ "` is not an input port"
  | unknownMemory name => "unknown memory `" ++ name ++ "`"
  | addressOutOfRange memory address depth =>
      "address " ++ toString address ++ " is out of range for memory `" ++ memory ++ "` of depth "
        ++ toString depth
  | unsupported construct => "unsupported construct: " ++ construct.describe
  | combinationalLoop name => "combinational loop through `" ++ name ++ "`"

end Multiport
