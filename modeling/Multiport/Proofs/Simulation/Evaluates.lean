import Multiport.Proofs.Logic.Single
import Multiport.Proofs.Netlist.Mentions
import Multiport.Proofs.Outcome
import Multiport.Simulation.Simulator

namespace Multiport

/-- The value of an expression depends on the arrays and on the signals in it. -/
theorem Expr.eval_congr_signals {first second : Environment} {expr : Expr}
    (arrays : first.arrays = second.arrays)
    (values : ∀ name ∈ expr.signals, first.value name = second.value name) :
    expr.eval first = expr.eval second := by
  induction expr with
  | number bits => rfl
  | ident name => exact values name List.mem_cons_self
  | word array index ih => simp only [eval, arrays, ih values]
  | paren inner ih => exact ih values
  | binary op left right leftIh rightIh =>
    simp only [eval, leftIh fun name member => values name (List.mem_append_left _ member),
      rightIh fun name member => values name (List.mem_append_right _ member)]
  | cond condition onTrue onFalse conditionIh trueIh falseIh =>
    have inCondition := fun name member => values name (List.mem_append_left onFalse.signals
      (List.mem_append_left onTrue.signals member))
    have inTrue := fun name member => values name (List.mem_append_left onFalse.signals
      (List.mem_append_right condition.signals member))
    have inFalse := fun name member => values name (List.mem_append_right _ member)
    simp only [eval, conditionIh inCondition, trueIh inTrue, falseIh inFalse]

/-- So it depends on the names in it, whether of arrays or of signals. -/
theorem Expr.eval_congr {first second : Environment} {expr : Expr}
    (arrays : first.arrays = second.arrays)
    (values : ∀ name ∈ expr.reads, first.value name = second.value name) :
    expr.eval first = expr.eval second :=
  eval_congr_signals arrays fun name member => values name (expr.signals_subset_reads member)

/-- A name with a value of its own hides nothing from an expression that does not read it. -/
theorem Expr.eval_shadow_of_not_mem {environment : Environment} {values : Table Bits}
    {expr : Expr} (apart : ∀ name ∈ expr.reads, values.get? name = none) :
    expr.eval (environment.shadow values) = expr.eval environment := by
  refine eval_congr rfl ?_
  intro name member
  simp [Environment.shadow, apart name member]

namespace Simulator

/-- What expressions are worth when names are followed to a depth. -/
def within (sim : Simulator) (depth : Nat) : Environment := ⟨sim.arrays.get?, sim.valueWithin depth⟩

/-- The expression has the value wherever as many names as its rank may be followed. -/
def Evaluates (sim : Simulator) (rank : Nat) (expr : Expr) (bits : Bits) : Prop :=
  ∀ depth, expr.eval (sim.within (depth + rank)) = .ok bits

variable {sim : Simulator} {rank : Nat}

namespace Evaluates

theorem mono {expr : Expr} {bits : Bits} (evaluates : sim.Evaluates rank expr bits) {more : Nat}
    (bound : rank ≤ more) : sim.Evaluates more expr bits := by
  intro depth
  obtain ⟨extra, rfl⟩ := Nat.exists_eq_add_of_le bound
  rw [show depth + (rank + extra) = depth + extra + rank by omega]
  exact evaluates (depth + extra)

theorem eval {expr : Expr} {bits : Bits} (evaluates : sim.Evaluates rank expr bits)
    (bound : rank ≤ maxDepth + 1) : expr.eval sim.environment = .ok bits := by
  have whole := evaluates.mono bound 0
  rwa [Nat.zero_add] at whole

/-- Names with values of their own do not matter where the expression does not read them. -/
theorem eval_shadow {expr : Expr} {bits : Bits} (evaluates : sim.Evaluates rank expr bits)
    (bound : rank ≤ maxDepth + 1) {values : Table Bits}
    (apart : ∀ name ∈ expr.reads, values.get? name = none) :
    expr.eval (sim.environment.shadow values) = .ok bits :=
  (Expr.eval_shadow_of_not_mem apart).trans (evaluates.eval bound)

theorem get {name : String} {bits : Bits} (evaluates : sim.Evaluates rank (.ident name) bits)
    (bound : rank ≤ maxDepth + 1) : sim.get name = .ok bits :=
  evaluates.eval bound

theorem number (bits : Bits) : sim.Evaluates rank (.number bits) bits := fun _ => rfl

theorem word {array : String} {words : WordArray} {index : Expr} {address : Bits}
    (found : sim.arrays.get? array = some words) (evaluates : sim.Evaluates rank index address) :
    sim.Evaluates rank (.word array index) (words.read address) := by
  intro depth
  simp only [Expr.eval, within, found]
  rw [show index.eval ⟨sim.arrays.get?, sim.valueWithin (depth + rank)⟩ = _ from evaluates depth]
  rfl

theorem and {left right : Expr} {leftBits rightBits bits : Bits}
    (leftEvaluates : sim.Evaluates rank left leftBits)
    (rightEvaluates : sim.Evaluates rank right rightBits)
    (conjunction : leftBits.and? rightBits = some bits) :
    sim.Evaluates rank (.combine .and left right) bits := by
  intro depth
  simp only [Expr.combine, Expr.eval, Expr.eval_toPrimary, leftEvaluates depth,
    rightEvaluates depth, ok_bind, conjunction, pure_eq_ok]

theorem equal {left right : Expr} {leftBits rightBits : Bits}
    (leftEvaluates : sim.Evaluates rank left leftBits)
    (rightEvaluates : sim.Evaluates rank right rightBits) :
    sim.Evaluates rank (.combine .equal left right) (leftBits.eqArith rightBits) := by
  intro depth
  simp only [Expr.combine, Expr.eval, Expr.eval_toPrimary, leftEvaluates depth,
    rightEvaluates depth, ok_bind, pure_eq_ok]

theorem guarded {condition value : Expr} {decided bits : Bits} {width : Nat}
    (conditionEvaluates : sim.Evaluates rank condition decided)
    (valueEvaluates : sim.Evaluates rank value bits) (same : bits.width = width) :
    sim.Evaluates rank (.cond condition value (.x width))
      (if decided.isTrue then bits else .x width) := by
  intro depth
  simp only [Expr.eval, Expr.x, conditionEvaluates depth, valueEvaluates depth, ok_bind,
    Bits.merge?_x same]
  split
  · rfl
  · split <;> rfl

theorem held {name : String} {bits : Bits} (found : sim.held? name = some bits) :
    sim.Evaluates 1 (.ident name) bits := by
  intro depth
  simp [Expr.eval, within, valueWithin, found]

/-- A name that is driven has the value of its driver, at its own width. -/
theorem driven {name : String} {driver : Expr} {bits : Bits} {width : Nat}
    (free : sim.held? name = none) (found : sim.drivers.get? name = some driver)
    (wide : sim.widths.get? name = some width) (evaluates : sim.Evaluates rank driver bits) :
    sim.Evaluates (rank + 1) (.ident name) (bits.resize width) := by
  intro depth
  have value := evaluates depth
  simp only [within] at value
  rw [← Nat.add_assoc]
  simp only [Expr.eval_ident, within, valueWithin, free, found, wide, value, ok_bind]
  rfl

/-- A name that a combinational block settles has the value that it was given last. -/
theorem settled {name : String} {body : List Statement} {bits : Bits} {width : Nat}
    (free : sim.held? name = none) (undriven : sim.drivers.get? name = none)
    (found : sim.settled.get? name = some body) (wide : sim.widths.get? name = some width)
    (settles : ∀ depth, ∃ values, Statement.settleAll (sim.within (depth + rank)) body .empty =
      .ok values ∧ values.get? name = some bits) :
    sim.Evaluates (rank + 1) (.ident name) (bits.resize width) := by
  intro depth
  obtain ⟨values, done, given⟩ := settles depth
  simp only [within] at done
  rw [← Nat.add_assoc]
  simp only [Expr.eval_ident, within, valueWithin, free, undriven, found, wide, done, given,
    ok_bind]
  rfl

end Evaluates
end Simulator
end Multiport
