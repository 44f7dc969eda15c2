/-! Broken calling contracts. Some operations may be called only in certain states or on certain
arguments; a call outside that contract is not an error of the data but of the caller, and ends
the run with the text given here. -/
namespace Multiport

/-- How a call can break the contract of the operation it calls. -/
inductive Breach where
  | indexOfNonIdentifier
  | targetNotAssignable
  | elseWithoutIf
  | elseTwice
  | closeWithoutIf
  | openConditionals (count : Nat)
  | leaveWithoutSection
  | openSections (count : Nat)
  | undeclarableShape
  | signalsExhausted
deriving DecidableEq, Repr

/-- The text a broken contract ends with. -/
def Breach.message : Breach → String
  | indexOfNonIdentifier => "with_index: self is not an identifier"
  | targetNotAssignable => "lvalue should be hierarchical identifier"
  | elseWithoutIf => "begin_else: no open conditional"
  | elseTwice => "begin_else: else-branch already open"
  | closeWithoutIf => "end_if: no open conditional"
  | openConditionals count => "finish: " ++ toString count ++ " conditionals left open"
  | leaveWithoutSection => "leave_section: no open section"
  | openSections count => "finish: " ++ toString count ++ " sections left open"
  | undeclarableShape => "not implemented"
  | signalsExhausted => "signal count is checked before grouping"

end Multiport
