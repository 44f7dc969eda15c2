import Multiport.Proofs.Outcome
import Multiport.Simulation.Evaluation

namespace Multiport

/-- Statements ask for updates. A word at an unknown address is not asked for. -/
inductive Asks (environment : Environment) : List Statement → List Update → Prop where
  | nil : Asks environment [] []
  | register {name : String} {value : Expr} {bits : Bits} {rest : List Statement}
      {later : List Update} (valued : value.eval environment = .ok bits)
      (others : Asks environment rest later) :
      Asks environment (.nonblocking (.ident name) value :: rest) (.register name bits :: later)
  | word {array : String} {index value : Expr} {bits address : Bits} {place : Nat}
      {rest : List Statement} {later : List Update} (valued : value.eval environment = .ok bits)
      (indexed : index.eval environment = .ok address) (known : address.toWord? = some place)
      (others : Asks environment rest later) :
      Asks environment (.nonblocking (.word array index) value :: rest)
        (.word array place bits :: later)
  | dropped {array : String} {index value : Expr} {bits address : Bits} {rest : List Statement}
      {later : List Update} (valued : value.eval environment = .ok bits)
      (indexed : index.eval environment = .ok address) (unknown : address.toWord? = none)
      (others : Asks environment rest later) :
      Asks environment (.nonblocking (.word array index) value :: rest) later
  | cond {condition : Expr} {decided : Bits} {onTrue onFalse rest : List Statement}
      {first later : List Update} (decides : condition.eval environment = .ok decided)
      (taken : Asks environment (if decided.isTrue then onTrue else onFalse) first)
      (others : Asks environment rest later) :
      Asks environment (.cond condition onTrue onFalse :: rest) (first ++ later)

/-- Statements have a first fault: a value, index or condition that cannot be evaluated, or an
assignment that no clocked block can make. -/
inductive Faults (environment : Environment) : List Statement → SimulationError → Prop where
  | value {target value : Expr} {rest : List Statement} {error : SimulationError}
      (failed : value.eval environment = .error error) :
      Faults environment (.nonblocking target value :: rest) error
  | index {array : String} {index value : Expr} {bits : Bits} {rest : List Statement}
      {error : SimulationError} (valued : value.eval environment = .ok bits)
      (failed : index.eval environment = .error error) :
      Faults environment (.nonblocking (.word array index) value :: rest) error
  | target {target value : Expr} {bits : Bits} {rest : List Statement}
      (valued : value.eval environment = .ok bits) (refused : target.isAssignable = false) :
      Faults environment (.nonblocking target value :: rest) (.unsupported (.assignment target))
  | blocking {target value : Expr} {rest : List Statement} :
      Faults environment (.blocking target value :: rest) (.unsupported .blockingWhenClocked)
  | condition {condition : Expr} {onTrue onFalse rest : List Statement} {error : SimulationError}
      (failed : condition.eval environment = .error error) :
      Faults environment (.cond condition onTrue onFalse :: rest) error
  | branch {condition : Expr} {decided : Bits} {onTrue onFalse rest : List Statement}
      {error : SimulationError} (decides : condition.eval environment = .ok decided)
      (fault : Faults environment (if decided.isTrue then onTrue else onFalse) error) :
      Faults environment (.cond condition onTrue onFalse :: rest) error
  | later {statement : Statement} {rest : List Statement} {first : List Update}
      {error : SimulationError} (asked : Asks environment [statement] first)
      (fault : Faults environment rest error) : Faults environment (statement :: rest) error

variable {environment : Environment}

theorem Asks.append {first second : List Statement} {earlier later : List Update}
    (asksFirst : Asks environment first earlier) (asksSecond : Asks environment second later) :
    Asks environment (first ++ second) (earlier ++ later) := by
  induction asksFirst with
  | nil => exact asksSecond
  | register valued _ ih => exact .register valued ih
  | word valued indexed known _ ih => exact .word valued indexed known ih
  | dropped valued indexed unknown _ ih => exact .dropped valued indexed unknown ih
  | cond decides taken _ _ ih =>
    rw [List.append_assoc]
    exact .cond decides taken ih

/-- A fault of one statement is the first fault of it and others after it. -/
theorem Faults.before {statement : Statement} {error : SimulationError}
    (fault : Faults environment [statement] error) (rest : List Statement) :
    Faults environment (statement :: rest) error := by
  cases fault with
  | value failed => exact .value failed
  | index valued failed => exact .index valued failed
  | target valued refused => exact .target valued refused
  | blocking => exact .blocking
  | condition failed => exact .condition failed
  | branch decides fault => exact .branch decides fault
  | later _ nothing => cases nothing

mutual

private theorem asks_or_faults_one (environment : Environment) : ∀ statement : Statement,
    (∃ updates, Asks environment [statement] updates) ∨
      ∃ error, Faults environment [statement] error
  | .blocking _ _ => .inr ⟨_, .blocking⟩
  | .nonblocking target value => by
    cases valued : value.eval environment with
    | error error => exact .inr ⟨error, .value valued⟩
    | ok bits =>
      cases target with
      | ident name => exact .inl ⟨_, .register valued .nil⟩
      | word array index =>
        cases indexed : index.eval environment with
        | error error => exact .inr ⟨error, .index valued indexed⟩
        | ok address =>
          cases known : address.toWord? with
          | none => exact .inl ⟨_, .dropped valued indexed known .nil⟩
          | some place => exact .inl ⟨_, .word valued indexed known .nil⟩
      | number | paren | binary | cond => exact .inr ⟨_, .target valued rfl⟩
  | .cond condition onTrue onFalse => by
    cases decides : condition.eval environment with
    | error error => exact .inr ⟨error, .condition decides⟩
    | ok decided =>
      have branch : (∃ updates, Asks environment (if decided.isTrue then onTrue else onFalse)
          updates) ∨
          ∃ error, Faults environment (if decided.isTrue then onTrue else onFalse) error := by
        split
        · exact asks_or_faults environment onTrue
        · exact asks_or_faults environment onFalse
      rcases branch with ⟨updates, taken⟩ | ⟨error, fault⟩
      · exact .inl ⟨_, .cond decides taken .nil⟩
      · exact .inr ⟨error, .branch decides fault⟩

theorem asks_or_faults (environment : Environment) : ∀ body : List Statement,
    (∃ updates, Asks environment body updates) ∨ ∃ error, Faults environment body error
  | [] => .inl ⟨[], .nil⟩
  | statement :: rest => by
    rcases asks_or_faults_one environment statement with ⟨first, asked⟩ | ⟨error, fault⟩
    · rcases asks_or_faults environment rest with ⟨later, others⟩ | ⟨error, fault⟩
      · exact .inl ⟨_, asked.append others⟩
      · exact .inr ⟨error, .later asked fault⟩
    · exact .inr ⟨error, fault.before rest⟩

end

namespace Statement

private theorem updates_cond (condition : Expr) (onTrue onFalse : List Statement) :
    (cond condition onTrue onFalse).updates environment =
      condition.eval environment >>= fun decided =>
        updatesAll environment (if decided.isTrue then onTrue else onFalse) := by
  simp only [updates]
  congr 1
  funext decided
  split <;> rfl

private theorem updatesAll_of_asks {body : List Statement} {demanded : List Update}
    (asks : Asks environment body demanded) : updatesAll environment body = .ok demanded := by
  induction asks with
  | nil => rfl
  | register valued _ ih => simp [updatesAll, updates, Update.ofTarget, valued, ih]
  | word valued indexed known _ ih =>
    simp [updatesAll, updates, Update.ofTarget, valued, indexed, known, ih]
  | dropped valued indexed unknown _ ih =>
    simp [updatesAll, updates, Update.ofTarget, valued, indexed, unknown, ih]
  | cond decides _ _ ihTaken ih => simp [updatesAll, updates_cond, decides, ihTaken, ih]

private theorem updatesAll_of_faults {body : List Statement} {error : SimulationError}
    (faults : Faults environment body error) : updatesAll environment body = .error error := by
  induction faults with
  | value failed => simp [updatesAll, updates, failed]
  | index valued failed => simp [updatesAll, updates, Update.ofTarget, valued, failed]
  | @target target value bits rest valued refused =>
    cases target <;> simp_all [updatesAll, updates, Update.ofTarget, Expr.isAssignable]
  | blocking => simp [updatesAll, updates]
  | condition failed => simp [updatesAll, updates_cond, failed]
  | branch decides _ ih => simp [updatesAll, updates_cond, decides, ih]
  | later asked _ ih =>
    have first := updatesAll_of_asks asked
    simp only [updatesAll] at first ⊢
    obtain ⟨here, done, -⟩ := bind_eq_ok_iff.mp first
    simp [done, ih]

theorem updatesAll_eq_ok_iff {body : List Statement} {demanded : List Update} :
    updatesAll environment body = .ok demanded ↔ Asks environment body demanded := by
  refine ⟨fun done => ?_, updatesAll_of_asks⟩
  rcases asks_or_faults environment body with ⟨others, asks⟩ | ⟨error, faults⟩
  · rw [updatesAll_of_asks asks, Except.ok.injEq] at done
    exact done ▸ asks
  · rw [updatesAll_of_faults faults] at done
    cases done

theorem updatesAll_eq_error_iff {body : List Statement} {error : SimulationError} :
    updatesAll environment body = .error error ↔ Faults environment body error := by
  refine ⟨fun failed => ?_, updatesAll_of_faults⟩
  rcases asks_or_faults environment body with ⟨updates, asks⟩ | ⟨other, faults⟩
  · rw [updatesAll_of_asks asks] at failed
    cases failed
  · rw [updatesAll_of_faults faults, Except.error.injEq] at failed
    exact failed ▸ faults

end Statement
end Multiport
