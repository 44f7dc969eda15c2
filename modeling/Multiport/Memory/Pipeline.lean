import Multiport.Draft.Module

namespace Multiport.ModuleDraft

/-- Delays a signal by edges of a clock. The registers are named in the scope, by their place in
the chain; the answer is the last of them, or the signal itself for no edge at all. -/
def delay (draft : ModuleDraft) (scope : Scope) (signal clock : Signal) : Nat → Signal × ModuleDraft
  | 0 => (signal, draft)
  | stages + 1 =>
      let (current, draft) := draft.delay scope signal clock stages
      let (captured, draft) := draft.declareReg scope ("d" ++ toString stages) current.width
      (captured, draft.clocked clock [.nonblocking captured.expr current.expr])

@[simp] theorem delay_zero (draft : ModuleDraft) (scope : Scope) (signal clock : Signal) :
    draft.delay scope signal clock 0 = (signal, draft) := rfl

@[simp] theorem width_delay (draft : ModuleDraft) (scope : Scope) (signal clock : Signal)
    (stages : Nat) : (draft.delay scope signal clock stages).1.width = signal.width := by
  induction stages with
  | zero => rfl
  | succ stages ih => exact ih

end Multiport.ModuleDraft
