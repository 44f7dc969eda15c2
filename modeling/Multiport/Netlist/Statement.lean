import Multiport.Netlist.Expr
import Multiport.Text.Lines

namespace Multiport

/-- A statement of a procedural block. -/
inductive Statement where
  | blocking (target value : Expr)
  | nonblocking (target value : Expr)
  | cond (condition : Expr) (onTrue onFalse : List Statement)
deriving Repr

/-- The blanks that a nested line is indented by. -/
def indentation : Nat := 4

namespace Statement

/-- A blocking assignment to something that can be assigned to. -/
def assign (target value : Expr) : Except Breach Statement :=
  if target.isAssignable then .ok (blocking target value) else .error .targetNotAssignable

/-- A nonblocking assignment to something that can be assigned to. -/
def schedule (target value : Expr) : Except Breach Statement :=
  if target.isAssignable then .ok (nonblocking target value) else .error .targetNotAssignable

/-- The text of a conditional. An empty second branch is left out even if the first is empty too;
an empty first branch leaves no line of its own when the second has some. -/
def renderCond (condition : Expr) (onTrue onFalse : List String) : String :=
  let branch (lines : List String) := Text.indent indentation (Text.joinLines lines)
  let start := "if (" ++ condition.render ++ ") begin\n"
  if onFalse.isEmpty then
    start ++ branch onTrue ++ "\nend"
  else if onTrue.isEmpty then
    start ++ "end else begin\n" ++ branch onFalse ++ "\nend"
  else
    start ++ branch onTrue ++ "\nend else begin\n" ++ branch onFalse ++ "\nend"

mutual

/-- The text of a statement, over several lines for a conditional. -/
def render : Statement → String
  | blocking target value => target.render ++ " = " ++ value.render ++ ";"
  | nonblocking target value => target.render ++ " <= " ++ value.render ++ ";"
  | cond condition onTrue onFalse => renderCond condition (renderAll onTrue) (renderAll onFalse)

def renderAll : List Statement → List String
  | [] => []
  | statement :: rest => statement.render :: renderAll rest

end

def renderBlock (body : List Statement) : String := Text.joinLines (renderAll body)

mutual

/-- The plain names that blocking assignments set, in order, in both branches of conditionals. -/
def blockingNames : Statement → List String
  | blocking target _ => target.name?.toList
  | nonblocking _ _ => []
  | cond _ onTrue onFalse => blockingNamesAll onTrue ++ blockingNamesAll onFalse

/-- The plain names that blocking assignments set in a list of statements. -/
def blockingNamesAll : List Statement → List String
  | [] => []
  | statement :: rest => statement.blockingNames ++ blockingNamesAll rest

end

theorem renderAll_eq_map (body : List Statement) : renderAll body = body.map render := by
  induction body with
  | nil => rfl
  | cons statement rest ih => simp [renderAll, ih]

theorem blockingNamesAll_eq_flatMap (body : List Statement) :
    blockingNamesAll body = body.flatMap blockingNames := by
  induction body with
  | nil => rfl
  | cons statement rest ih => simp [blockingNamesAll, ih]

/-- A blocking assignment is refused exactly when its target cannot be assigned to. -/
theorem assign_eq_error_iff {target value : Expr} {breach : Breach} :
    assign target value = .error breach ↔
      target.isAssignable = false ∧ breach = .targetNotAssignable := by
  unfold assign
  cases target.isAssignable <;> simp [eq_comm]

/-- A nonblocking assignment is refused exactly when its target cannot be assigned to. -/
theorem schedule_eq_error_iff {target value : Expr} {breach : Breach} :
    schedule target value = .error breach ↔
      target.isAssignable = false ∧ breach = .targetNotAssignable := by
  unfold schedule
  cases target.isAssignable <;> simp [eq_comm]

end Statement
end Multiport
