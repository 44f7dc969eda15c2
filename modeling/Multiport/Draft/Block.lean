import Multiport.Netlist.Statement

/-! Blocks assembled step by step. A step adds an assignment to the branch that is open innermost,
opens a conditional, turns to its second branch, or closes it; a finished block has no conditional
left open. `BlockDraft.run` takes the steps of a block in order. -/
namespace Multiport

/-- One step in assembling a block. -/
inductive BlockStep where
  | blocking (target value : Expr)
  | nonblocking (target value : Expr)
  | openIf (condition : Expr)
  | openElse
  | closeIf
deriving DecidableEq, Repr

/-- A conditional not closed yet. Its second branch is absent until it is turned to. -/
structure OpenBranch where
  condition : Expr
  onTrue : List Statement
  onFalse? : Option (List Statement)

namespace OpenBranch

/-- Adds a statement to the branch that is being filled. -/
def add (branch : OpenBranch) (statement : Statement) : OpenBranch :=
  match branch.onFalse? with
  | some statements => { branch with onFalse? := some (statements ++ [statement]) }
  | none => { branch with onTrue := branch.onTrue ++ [statement] }

/-- The conditional; a branch never turned to is empty. -/
def close (branch : OpenBranch) : Statement :=
  .cond branch.condition branch.onTrue (branch.onFalse?.getD [])

end OpenBranch

/-- A block under construction: the finished statements and the open conditionals, innermost
first. -/
structure BlockDraft where
  finished : List Statement
  branches : List OpenBranch

namespace BlockDraft

def empty : BlockDraft := ⟨[], []⟩

/-- Adds a statement where the draft stands. -/
def add (draft : BlockDraft) (statement : Statement) : BlockDraft :=
  match draft.branches with
  | [] => { draft with finished := draft.finished ++ [statement] }
  | branch :: outer => { draft with branches := branch.add statement :: outer }

def step (draft : BlockDraft) : BlockStep → Except Breach BlockDraft
  | .blocking target value => return draft.add (← Statement.assign target value)
  | .nonblocking target value => return draft.add (← Statement.schedule target value)
  | .openIf condition => .ok { draft with branches := ⟨condition, [], none⟩ :: draft.branches }
  | .openElse =>
      match draft.branches with
      | [] => .error .elseWithoutIf
      | branch :: outer =>
          if branch.onFalse?.isSome then .error .elseTwice
          else .ok { draft with branches := { branch with onFalse? := some [] } :: outer }
  | .closeIf =>
      match draft.branches with
      | [] => .error .closeWithoutIf
      | branch :: outer => .ok (add { draft with branches := outer } branch.close)

/-- Takes steps in order, up to the first that is refused. -/
def run (draft : BlockDraft) (steps : List BlockStep) : Except Breach BlockDraft :=
  steps.foldlM step draft

/-- The statements of a draft in which nothing is open. -/
def finish (draft : BlockDraft) : Except Breach (List Statement) :=
  if draft.branches.isEmpty then .ok draft.finished
  else .error (.openConditionals draft.branches.length)

/-- The statements that steps assemble from nothing. -/
def assemble (steps : List BlockStep) : Except Breach (List Statement) := do
  (← empty.run steps).finish

@[simp] theorem run_nil (draft : BlockDraft) : draft.run [] = .ok draft := rfl

theorem run_cons (draft : BlockDraft) (step : BlockStep) (rest : List BlockStep) :
    draft.run (step :: rest) = draft.step step >>= fun next => next.run rest := rfl

theorem run_append (draft : BlockDraft) (first second : List BlockStep) :
    draft.run (first ++ second) = draft.run first >>= fun next => next.run second := by
  simp [run, List.foldlM_append]

end BlockDraft
end Multiport
