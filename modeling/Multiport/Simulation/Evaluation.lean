import Multiport.Netlist.Statement
import Multiport.Simulation.Error
import Multiport.Simulation.WordArray
import Multiport.Table

/-! Evaluation of expressions and blocks over an environment, which says what a name is worth and
what an array holds. Evaluating an expression never changes anything; a combinational block is run
over values of its own, and a clocked block gives the updates it asks for. -/
namespace Multiport

/-- What expressions are evaluated over. -/
structure Environment where
  arrays : String → Option WordArray
  value : String → Except SimulationError Bits

/-- The environment in which some names have values of their own. -/
def Environment.shadow (environment : Environment) (values : Table Bits) : Environment where
  arrays := environment.arrays
  value name :=
    match values.get? name with
    | some bits => .ok bits
    | none => environment.value name

/-- The value of an expression. A conditional on something unknown has the bits on which its two
branches agree; a condition that is known and not true takes the second branch. -/
def Expr.eval (environment : Environment) : Expr → Except SimulationError Bits
  | .number bits => .ok bits
  | .ident name => environment.value name
  | .word array index =>
      match environment.arrays array with
      | none => .error (.unknownMemory array)
      | some words => do return words.read (← index.eval environment)
  | .paren inner => inner.eval environment
  | .binary op left right => do
      let leftValue ← left.eval environment
      let rightValue ← right.eval environment
      match op with
      | .equal => return leftValue.eqArith rightValue
      | .and =>
          match leftValue.and? rightValue with
          | some bits => return bits
          | none => throw (.unsupported (.operandWidths (.binary op left right)))
  | .cond condition onTrue onFalse => do
      let decided ← condition.eval environment
      if decided.isTrue then onTrue.eval environment
      else if decided.isKnown then onFalse.eval environment
      else
        let trueValue ← onTrue.eval environment
        let falseValue ← onFalse.eval environment
        match trueValue.merge? falseValue with
        | some bits => return bits
        | none => throw (.unsupported (.branchWidths (.cond condition onTrue onFalse)))

/-- A change that a clocked block asks for. -/
inductive Update where
  | register (name : String) (value : Bits)
  | word (array : String) (address : Nat) (value : Bits)
deriving DecidableEq, Repr

/-- The update that a nonblocking assignment asks for, once its value is known. A word at an
unknown address is left alone. -/
def Update.ofTarget (environment : Environment) (value : Bits) :
    Expr → Except SimulationError (List Update)
  | .ident name => .ok [.register name value]
  | .word array index => do
      match (← index.eval environment).toWord? with
      | some address => return [.word array address value]
      | none => return []
  | target => .error (.unsupported (.assignment target))

namespace Statement

mutual

/-- Runs a statement of a combinational block over the values that the block has set. A condition
that is not true, known or not, takes the second branch. -/
def settle (environment : Environment) :
    Statement → Table Bits → Except SimulationError (Table Bits)
  | blocking target value, values => do
      let bits ← value.eval (environment.shadow values)
      match target.name? with
      | some name => return values.insert name bits
      | none => throw (.unsupported (.assignment target))
  | nonblocking _ _, _ => .error (.unsupported .nonblockingWhenCombinational)
  | cond condition onTrue onFalse, values => do
      let decided ← condition.eval (environment.shadow values)
      if decided.isTrue then settleAll environment onTrue values
      else settleAll environment onFalse values

/-- Runs the statements of a combinational block in order. -/
def settleAll (environment : Environment) :
    List Statement → Table Bits → Except SimulationError (Table Bits)
  | [], values => .ok values
  | statement :: rest, values => do
      let values ← statement.settle environment values
      settleAll environment rest values

end

mutual

/-- The updates that a statement of a clocked block asks for. -/
def updates (environment : Environment) : Statement → Except SimulationError (List Update)
  | blocking _ _ => .error (.unsupported .blockingWhenClocked)
  | nonblocking target value => do
      let bits ← value.eval environment
      Update.ofTarget environment bits target
  | cond condition onTrue onFalse => do
      let decided ← condition.eval environment
      if decided.isTrue then updatesAll environment onTrue else updatesAll environment onFalse

/-- The updates that the statements of a clocked block ask for, in order. -/
def updatesAll (environment : Environment) : List Statement → Except SimulationError (List Update)
  | [] => .ok []
  | statement :: rest => do
      let first ← statement.updates environment
      return first ++ (← updatesAll environment rest)

end

end Statement

@[simp] theorem Environment.shadow_empty (environment : Environment) :
    environment.shadow .empty = environment := rfl

@[simp] theorem Expr.eval_number (environment : Environment) (bits : Bits) :
    (number bits).eval environment = .ok bits := rfl

@[simp] theorem Expr.eval_ident (environment : Environment) (name : String) :
    (ident name).eval environment = environment.value name := rfl

@[simp] theorem Expr.eval_paren (environment : Environment) (inner : Expr) :
    (paren inner).eval environment = inner.eval environment := rfl

/-- Parentheses that make an operand primary do not change its value. -/
@[simp] theorem Expr.eval_toPrimary (environment : Environment) (expr : Expr) :
    expr.toPrimary.eval environment = expr.eval environment := by
  unfold toPrimary
  split <;> rfl

end Multiport
