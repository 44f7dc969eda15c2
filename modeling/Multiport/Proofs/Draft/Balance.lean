import Multiport.Draft.Block
import Multiport.Proofs.Netlist.Mentions
import Multiport.Proofs.Outcome

/-! Blocks against the grammar of their steps. A block is a row of assignments and conditionals. A
conditional is opened, may turn to its second branch once, and is closed, and in each branch stands
a block. The steps that assemble a block are just those of a derivation, and the block is the one
derived. Whatever steps have been taken, the draft tells how they are derived up to the conditionals
that are open; so the first step that is refused is one that no derivation goes on with. -/
namespace Multiport

/-- Steps that derive the statements of a block. -/
inductive BlockDerives : List BlockStep → List Statement → Prop where
  | nil : BlockDerives [] []
  | blocking {target value : Expr} {steps : List BlockStep} {body : List Statement}
      (assignable : target.isAssignable = true) (rest : BlockDerives steps body) :
      BlockDerives (.blocking target value :: steps) (.blocking target value :: body)
  | nonblocking {target value : Expr} {steps : List BlockStep} {body : List Statement}
      (assignable : target.isAssignable = true) (rest : BlockDerives steps body) :
      BlockDerives (.nonblocking target value :: steps) (.nonblocking target value :: body)
  | oneBranch {condition : Expr} {first steps : List BlockStep} {onTrue body : List Statement}
      (inFirst : BlockDerives first onTrue) (rest : BlockDerives steps body) :
      BlockDerives (.openIf condition :: first ++ .closeIf :: steps)
        (.cond condition onTrue [] :: body)
  | twoBranches {condition : Expr} {first second steps : List BlockStep}
      {onTrue onFalse body : List Statement} (inFirst : BlockDerives first onTrue)
      (inSecond : BlockDerives second onFalse) (rest : BlockDerives steps body) :
      BlockDerives (.openIf condition :: first ++ .openElse :: second ++ .closeIf :: steps)
        (.cond condition onTrue onFalse :: body)

theorem BlockDerives.append {first second : List BlockStep} {body others : List Statement}
    (derived : BlockDerives first body) (later : BlockDerives second others) :
    BlockDerives (first ++ second) (body ++ others) := by
  induction derived with
  | nil => exact later
  | blocking assignable _ ih => exact .blocking assignable ih
  | nonblocking assignable _ ih => exact .nonblocking assignable ih
  | oneBranch inFirst _ _ ih => simpa using BlockDerives.oneBranch inFirst ih
  | twoBranches inFirst inSecond _ _ _ ih =>
    simpa using BlockDerives.twoBranches inFirst inSecond ih

theorem BlockDerives.assignable {steps : List BlockStep} {body : List Statement}
    (derived : BlockDerives steps body) :
    ∀ assignment ∈ Statement.assignmentsAll body, assignment.1.isAssignable = true := by
  induction derived with
  | nil => exact fun _ member => absurd member List.not_mem_nil
  | blocking assignable _ ih | nonblocking assignable _ ih =>
    exact List.forall_mem_cons.mpr ⟨assignable, ih⟩
  | oneBranch _ _ inFirst ih =>
    simp only [Statement.assignmentsAll, Statement.assignments, List.append_nil]
    exact List.forall_mem_append.mpr ⟨inFirst, ih⟩
  | twoBranches _ _ _ inFirst inSecond ih =>
    simp only [Statement.assignmentsAll, Statement.assignments]
    exact List.forall_mem_append.mpr ⟨List.forall_mem_append.mpr ⟨inFirst, inSecond⟩, ih⟩

/-- Steps that derive what a conditional holds that is still open. -/
inductive OpenBranch.Derives : List BlockStep → OpenBranch → Prop where
  | first {condition : Expr} {steps : List BlockStep} {onTrue : List Statement}
      (inFirst : BlockDerives steps onTrue) :
      OpenBranch.Derives (.openIf condition :: steps) ⟨condition, onTrue, none⟩
  | second {condition : Expr} {first second : List BlockStep} {onTrue onFalse : List Statement}
      (inFirst : BlockDerives first onTrue) (inSecond : BlockDerives second onFalse) :
      OpenBranch.Derives (.openIf condition :: first ++ .openElse :: second)
        ⟨condition, onTrue, some onFalse⟩

namespace OpenBranch.Derives

variable {steps : List BlockStep} {branch : OpenBranch}

theorem add (derived : OpenBranch.Derives steps branch) {inner : List BlockStep}
    {statement : Statement} (single : BlockDerives inner [statement]) :
    OpenBranch.Derives (steps ++ inner) (branch.add statement) := by
  cases derived with
  | first inFirst => exact .first (inFirst.append single)
  | second inFirst inSecond =>
    rw [List.append_assoc, List.cons_append]
    exact .second inFirst (inSecond.append single)

theorem close (derived : OpenBranch.Derives steps branch) :
    BlockDerives (steps ++ [.closeIf]) [branch.close] := by
  cases derived with
  | first inFirst => exact .oneBranch inFirst .nil
  | second inFirst inSecond => exact .twoBranches inFirst inSecond .nil

end OpenBranch.Derives

/-- Steps that derive a draft: those of what is finished, and then those of each conditional that
is open, from the outermost one inwards. -/
inductive BlockDraft.Derives : List BlockStep → BlockDraft → Prop where
  | finished {steps : List BlockStep} {body : List Statement} (derived : BlockDerives steps body) :
      BlockDraft.Derives steps ⟨body, []⟩
  | inside {outer inner : List BlockStep} {body : List Statement} {branch : OpenBranch}
      {branches : List OpenBranch} (outside : BlockDraft.Derives outer ⟨body, branches⟩)
      (opened : OpenBranch.Derives inner branch) :
      BlockDraft.Derives (outer ++ inner) ⟨body, branch :: branches⟩

/-- The steps that a draft refuses. -/
inductive BlockDraft.Refuses : BlockDraft → BlockStep → Breach → Prop where
  | blocking {draft : BlockDraft} {target value : Expr} (fixed : target.isAssignable = false) :
      BlockDraft.Refuses draft (.blocking target value) .targetNotAssignable
  | nonblocking {draft : BlockDraft} {target value : Expr} (fixed : target.isAssignable = false) :
      BlockDraft.Refuses draft (.nonblocking target value) .targetNotAssignable
  | elseWithoutIf {body : List Statement} :
      BlockDraft.Refuses ⟨body, []⟩ .openElse .elseWithoutIf
  | elseTwice {body onTrue onFalse : List Statement} {condition : Expr}
      {outer : List OpenBranch} :
      BlockDraft.Refuses ⟨body, ⟨condition, onTrue, some onFalse⟩ :: outer⟩ .openElse .elseTwice
  | closeWithoutIf {body : List Statement} :
      BlockDraft.Refuses ⟨body, []⟩ .closeIf .closeWithoutIf

namespace BlockDraft

variable {draft next : BlockDraft} {taken steps : List BlockStep} {body : List Statement}

theorem step_eq_error_iff {step : BlockStep} {breach : Breach} :
    draft.step step = .error breach ↔ draft.Refuses step breach := by
  constructor
  · intro refused
    obtain ⟨finished, branches⟩ := draft
    cases step with
    | blocking target value =>
      cases able : target.isAssignable with
      | true => simp [BlockDraft.step, Statement.assign, able] at refused
      | false =>
        simp only [BlockDraft.step, Statement.assign, able] at refused
        cases refused
        exact .blocking able
    | nonblocking target value =>
      cases able : target.isAssignable with
      | true => simp [BlockDraft.step, Statement.schedule, able] at refused
      | false =>
        simp only [BlockDraft.step, Statement.schedule, able] at refused
        cases refused
        exact .nonblocking able
    | openIf condition => cases refused
    | openElse =>
      rcases branches with _ | ⟨⟨condition, onTrue, _ | onFalse⟩, outer⟩ <;> cases refused
      · exact .elseWithoutIf
      · exact .elseTwice
    | closeIf =>
      rcases branches with _ | ⟨branch, outer⟩ <;> cases refused
      exact .closeWithoutIf
  · intro refuses
    cases refuses with
    | blocking fixed => simp [BlockDraft.step, Statement.assign, fixed]
    | nonblocking fixed => simp [BlockDraft.step, Statement.schedule, fixed]
    | elseWithoutIf | elseTwice | closeWithoutIf => rfl

namespace Derives

/-- A statement that is added to a draft is derived after what the draft holds. -/
theorem add (derived : Derives taken draft) {inner : List BlockStep} {statement : Statement}
    (single : BlockDerives inner [statement]) :
    Derives (taken ++ inner) (draft.add statement) := by
  cases derived with
  | finished derived => exact .finished (derived.append single)
  | inside outside opened =>
    rw [List.append_assoc]
    exact .inside outside (opened.add single)

theorem step (derived : Derives taken draft) {step : BlockStep}
    (done : draft.step step = .ok next) : Derives (taken ++ [step]) next := by
  cases step with
  | blocking target value =>
    cases able : target.isAssignable with
    | false => simp [BlockDraft.step, Statement.assign, able] at done
    | true =>
      simp only [BlockDraft.step, Statement.assign, able] at done
      cases done
      exact derived.add (.blocking able .nil)
  | nonblocking target value =>
    cases able : target.isAssignable with
    | false => simp [BlockDraft.step, Statement.schedule, able] at done
    | true =>
      simp only [BlockDraft.step, Statement.schedule, able] at done
      cases done
      exact derived.add (.nonblocking able .nil)
  | openIf condition =>
    cases done
    exact .inside derived (.first .nil)
  | openElse =>
    cases derived with
    | finished derived => cases done
    | inside outside opened =>
      cases opened with
      | first inFirst =>
        cases done
        rw [List.append_assoc]
        exact .inside outside (.second inFirst .nil)
      | second inFirst inSecond => cases done
  | closeIf =>
    cases derived with
    | finished derived => cases done
    | inside outside opened =>
      cases done
      rw [List.append_assoc]
      exact outside.add opened.close

theorem run (derived : Derives taken draft) (done : draft.run steps = .ok next) :
    Derives (taken ++ steps) next := by
  induction steps generalizing taken draft with
  | nil =>
    cases done
    rwa [List.append_nil]
  | cons step rest ih =>
    obtain ⟨middle, first, others⟩ := bind_eq_ok_iff.mp done
    simpa using ih (derived.step first) others

end Derives

def addAll (draft : BlockDraft) (body : List Statement) : BlockDraft := body.foldl add draft

private theorem addAll_top (finished body : List Statement) :
    addAll ⟨finished, []⟩ body = ⟨finished ++ body, []⟩ := by
  induction body generalizing finished with
  | nil => simp [addAll]
  | cons statement rest ih =>
    rw [List.append_cons]
    exact ih _

private theorem addAll_first (finished onTrue body : List Statement) (condition : Expr)
    (outer : List OpenBranch) :
    addAll ⟨finished, ⟨condition, onTrue, none⟩ :: outer⟩ body =
      ⟨finished, ⟨condition, onTrue ++ body, none⟩ :: outer⟩ := by
  induction body generalizing onTrue with
  | nil => simp [addAll]
  | cons statement rest ih =>
    rw [List.append_cons]
    exact ih _

private theorem addAll_second (finished onTrue onFalse body : List Statement) (condition : Expr)
    (outer : List OpenBranch) :
    addAll ⟨finished, ⟨condition, onTrue, some onFalse⟩ :: outer⟩ body =
      ⟨finished, ⟨condition, onTrue, some (onFalse ++ body)⟩ :: outer⟩ := by
  induction body generalizing onFalse with
  | nil => simp [addAll]
  | cons statement rest ih =>
    rw [List.append_cons]
    exact ih _

/-- Steps that add statements where a draft stands, whatever it holds. -/
def Adds (steps : List BlockStep) (body : List Statement) : Prop :=
  ∀ draft : BlockDraft, draft.run steps = .ok (draft.addAll body)

section

variable {condition : Expr} {first second : List BlockStep} {onTrue onFalse : List Statement}

private theorem run_first (inFirst : Adds first onTrue) (draft : BlockDraft) :
    draft.run (.openIf condition :: first) =
      .ok ⟨draft.finished, ⟨condition, onTrue, none⟩ :: draft.branches⟩ := by
  have filled := inFirst ⟨draft.finished, ⟨condition, [], none⟩ :: draft.branches⟩
  rw [addAll_first] at filled
  exact filled

private theorem run_second (inFirst : Adds first onTrue) (inSecond : Adds second onFalse)
    (draft : BlockDraft) :
    draft.run (.openIf condition :: first ++ .openElse :: second) =
      .ok ⟨draft.finished, ⟨condition, onTrue, some onFalse⟩ :: draft.branches⟩ := by
  have filled := inSecond ⟨draft.finished, ⟨condition, onTrue, some []⟩ :: draft.branches⟩
  rw [addAll_second] at filled
  rw [run_append, run_first inFirst]
  exact filled

private theorem run_closeIf {inner : List BlockStep} {branch : OpenBranch}
    (opened : draft.run inner = .ok ⟨draft.finished, branch :: draft.branches⟩) :
    draft.run (inner ++ .closeIf :: steps) = (draft.add branch.close).run steps := by
  rw [run_append, opened]
  rfl

end

theorem adds_of_derives (derived : BlockDerives steps body) : Adds steps body := by
  induction derived with
  | nil => exact fun draft => rfl
  | @blocking target value steps body assignable rest ih =>
    intro draft
    have taken :
        draft.step (.blocking target value) = .ok (draft.add (.blocking target value)) := by
      simp [step, Statement.assign, assignable]
    rw [run_cons, taken]
    exact ih _
  | @nonblocking target value steps body assignable rest ih =>
    intro draft
    have taken : draft.step (.nonblocking target value) =
        .ok (draft.add (.nonblocking target value)) := by
      simp [step, Statement.schedule, assignable]
    rw [run_cons, taken]
    exact ih _
  | oneBranch inFirst rest firstIh ih =>
    intro draft
    rw [run_closeIf (run_first firstIh draft)]
    exact ih _
  | twoBranches inFirst inSecond rest firstIh secondIh ih =>
    intro draft
    rw [run_closeIf (run_second firstIh secondIh draft)]
    exact ih _

/-- Steps lead from nothing to the drafts that they derive, and to no other. -/
theorem run_eq_ok_iff : empty.run steps = .ok draft ↔ Derives steps draft := by
  constructor
  · intro done
    exact Derives.run (.finished .nil) done
  · intro derived
    induction derived with
    | finished derived => rw [adds_of_derives derived, empty, addAll_top, List.nil_append]
    | inside outside opened ih =>
      rw [run_append, ih]
      cases opened with
      | first inFirst => exact run_first (adds_of_derives inFirst) _
      | second inFirst inSecond =>
        exact run_second (adds_of_derives inFirst) (adds_of_derives inSecond) _

theorem run_eq_error_iff {breach : Breach} :
    draft.run steps = .error breach ↔ ∃ taken step rest middle, steps = taken ++ step :: rest ∧
      draft.run taken = .ok middle ∧ middle.Refuses step breach := by
  constructor
  · intro refused
    induction steps generalizing draft with
    | nil => cases refused
    | cons step rest ih =>
      rw [run_cons] at refused
      cases done : draft.step step with
      | error cause =>
        rw [done] at refused
        cases refused
        exact ⟨[], step, rest, draft, rfl, rfl, step_eq_error_iff.mp done⟩
      | ok next =>
        rw [done] at refused
        obtain ⟨taken, later, others, middle, rfl, first, refuses⟩ := ih refused
        exact ⟨step :: taken, later, others, middle, rfl, by rw [run_cons, done]; exact first,
          refuses⟩
  · rintro ⟨taken, step, rest, middle, rfl, first, refuses⟩
    rw [run_append, first, ok_bind, run_cons, step_eq_error_iff.mpr refuses]
    rfl

/-- Steps that assemble no block, and the contract that they break: by a step that is refused after
derived ones, or by a conditional that is still open at the end. -/
inductive Misuse : List BlockStep → Breach → Prop where
  | refused {taken rest : List BlockStep} {step : BlockStep} {draft : BlockDraft}
      {breach : Breach} (derived : Derives taken draft) (refuses : draft.Refuses step breach) :
      Misuse (taken ++ step :: rest) breach
  | leftOpen {steps : List BlockStep} {draft : BlockDraft} (derived : Derives steps draft)
      (opened : draft.branches ≠ []) :
      Misuse steps (.openConditionals draft.branches.length)

theorem assemble_eq_ok_iff : assemble steps = .ok body ↔ BlockDerives steps body := by
  constructor
  · intro assembled
    obtain ⟨draft, done, finished⟩ := bind_eq_ok_iff.mp assembled
    cases run_eq_ok_iff.mp done with
    | finished derived =>
      cases finished
      exact derived
    | inside outside opened => cases finished
  · intro derived
    rw [assemble, run_eq_ok_iff.mpr (.finished derived)]
    rfl

theorem assemble_eq_error_iff {breach : Breach} :
    assemble steps = .error breach ↔ Misuse steps breach := by
  constructor
  · intro refused
    cases done : empty.run steps with
    | error cause =>
      rw [assemble, done] at refused
      cases refused
      obtain ⟨taken, step, rest, middle, rfl, first, refuses⟩ := run_eq_error_iff.mp done
      exact .refused (run_eq_ok_iff.mp first) refuses
    | ok draft =>
      rw [assemble, done, ok_bind, finish] at refused
      split at refused
      · cases refused
      · rename_i opened
        cases refused
        exact .leftOpen (run_eq_ok_iff.mp done) (by simpa using opened)
  · intro misuse
    cases misuse with
    | @refused taken rest step draft _ derived refuses =>
      have stopped : empty.run (taken ++ step :: rest) = .error breach :=
        run_eq_error_iff.mpr
          ⟨taken, step, rest, draft, rfl, run_eq_ok_iff.mpr derived, refuses⟩
      rw [assemble, stopped]
      rfl
    | leftOpen derived opened =>
      rw [assemble, run_eq_ok_iff.mpr derived, ok_bind, finish, if_neg (by simpa using opened)]

end BlockDraft

namespace Statement

mutual

/-- The steps of a statement. A second branch is turned to unless it is empty, and in any case if
so wanted. -/
def steps (turning : Bool) : Statement → List BlockStep
  | blocking target value => [.blocking target value]
  | nonblocking target value => [.nonblocking target value]
  | cond condition onTrue onFalse =>
      let second :=
        if turning || !onFalse.isEmpty then .openElse :: stepsAll turning onFalse else []
      .openIf condition :: stepsAll turning onTrue ++ second ++ [.closeIf]

def stepsAll (turning : Bool) : List Statement → List BlockStep
  | [] => []
  | statement :: rest => statement.steps turning ++ stepsAll turning rest

end

mutual

private theorem derives_steps (turning : Bool) (statement : Statement)
    (assignable : ∀ assignment ∈ statement.assignments, assignment.1.isAssignable = true) :
    BlockDerives (statement.steps turning) [statement] := by
  cases statement with
  | blocking target value =>
    exact .blocking (assignable _ List.mem_cons_self) .nil
  | nonblocking target value =>
    exact .nonblocking (assignable _ List.mem_cons_self) .nil
  | cond condition onTrue onFalse =>
    obtain ⟨first, second⟩ := List.forall_mem_append.mp assignable
    have inFirst := derives_stepsAll turning onTrue first
    have inSecond := derives_stepsAll turning onFalse second
    rw [steps]
    split
    · exact .twoBranches inFirst inSecond .nil
    · rename_i skipped
      have empty : turning = false ∧ onFalse = [] := by simpa using skipped
      rw [empty.2, List.append_nil]
      exact .oneBranch inFirst .nil

private theorem derives_stepsAll (turning : Bool) (body : List Statement)
    (assignable : ∀ assignment ∈ assignmentsAll body, assignment.1.isAssignable = true) :
    BlockDerives (stepsAll turning body) body := by
  cases body with
  | nil => exact .nil
  | cons statement rest =>
    obtain ⟨first, others⟩ := List.forall_mem_append.mp assignable
    exact (derives_steps turning statement first).append (derives_stepsAll turning rest others)

end

end Statement

namespace BlockDraft

/-- Steps assemble a block exactly if they derive it, and otherwise break the contract that they
misuse. In particular the steps of any statements, whether or not they turn to empty second
branches, assemble just these if what is assigned there can be assigned to. -/
theorem blocks_assembled_as_derived :
    (∀ steps body, assemble steps = .ok body ↔ BlockDerives steps body) ∧
    (∀ steps breach, assemble steps = .error breach ↔ Misuse steps breach) ∧
    ∀ turning body, assemble (Statement.stepsAll turning body) = .ok body ↔
      ∀ assignment ∈ Statement.assignmentsAll body, assignment.1.isAssignable = true := by
  refine ⟨fun _ _ => assemble_eq_ok_iff, fun _ _ => assemble_eq_error_iff, fun turning body => ?_⟩
  rw [assemble_eq_ok_iff]
  exact ⟨BlockDerives.assignable, Statement.derives_stepsAll turning body⟩

end BlockDraft
end Multiport
