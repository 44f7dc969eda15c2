import Multiport.Breach
import Multiport.Draft.Error

namespace Multiport.Memory

/-- The longest latency that is lowered. -/
def maxLatency : Nat := 1024

/-- Why an attribute does not hold what it should. -/
inductive AttributeFault where
  | notInteger
  | negative (value : Int)
  | unknownPolicy (value : Int)
deriving DecidableEq, Repr

def AttributeFault.message : AttributeFault → String
  | notInteger => "expected an integer"
  | negative value => "expected a non-negative integer, found " ++ toString value
  | unknownPolicy value => "unknown read-under-write policy " ++ toString value

/-- Why no memory fits a descriptor. -/
inductive DescriptorFault where
  | zeroWidth
  | zeroDepth
  | longReadLatency (latency : Nat)
  | longWriteLatency (latency : Nat)
  | writeWithoutLatency
  | readWriteWithoutLatency
deriving DecidableEq, Repr

def DescriptorFault.message : DescriptorFault → String
  | zeroWidth => "data width must be positive"
  | zeroDepth => "depth must be positive"
  | longReadLatency latency =>
      "read latency " ++ toString latency ++ " exceeds the maximum of " ++ toString maxLatency
  | longWriteLatency latency =>
      "write latency " ++ toString latency ++ " exceeds the maximum of " ++ toString maxLatency
  | writeWithoutLatency => "write ports require a write latency of at least 1"
  | readWriteWithoutLatency => "read-write ports require a read or write latency of at least 1"

/-- Why a memory is not lowered. A broken contract is listed because lowering calls operations that
have contracts; on no input does it break one. -/
inductive LoweringError where
  | missingAttribute (module name : String)
  | invalidAttribute (module name : String) (fault : AttributeFault)
  | invalidDescriptor (fault : DescriptorFault)
  | signalCount (expected actual : Nat)
  | signalWidth (port field : String) (expected actual : Nat)
  | outputCount (expected actual : Nat)
  | draft (cause : DraftError)
  | breach (cause : Breach)
deriving DecidableEq, Repr

def LoweringError.message : LoweringError → String
  | missingAttribute module name =>
      "module `" ++ module ++ "` is missing attribute `" ++ name ++ "`"
  | invalidAttribute module name fault =>
      "module `" ++ module ++ "` has invalid attribute `" ++ name ++ "`: " ++ fault.message
  | invalidDescriptor fault => "invalid memory descriptor: " ++ fault.message
  | signalCount expected actual =>
      "descriptor requires " ++ toString expected ++ " input signals but " ++ toString actual ++
        " were given"
  | signalWidth port field expected actual =>
      "signal `" ++ field ++ "` of port " ++ port ++ " must be " ++ toString expected ++
        " bits wide, found " ++ toString actual
  | outputCount expected actual =>
      "descriptor requires " ++ toString expected ++ " output ports but the module declares " ++
        toString actual
  | draft cause => "module build error: " ++ cause.message
  | breach cause => cause.message

end Multiport.Memory
