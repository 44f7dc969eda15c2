import Multiport.Netlist.Module

namespace Multiport

def Expr.reads : Expr → List String
  | number _ => []
  | ident name => [name]
  | word array index => array :: index.reads
  | paren inner => inner.reads
  | binary _ left right => left.reads ++ right.reads
  | cond condition onTrue onFalse => condition.reads ++ onTrue.reads ++ onFalse.reads

/-- The signals among them: those names whose own value is asked for, and not a word of an array. -/
def Expr.signals : Expr → List String
  | number _ => []
  | ident name => [name]
  | word _ index => index.signals
  | paren inner => inner.signals
  | binary _ left right => left.signals ++ right.signals
  | cond condition onTrue onFalse => condition.signals ++ onTrue.signals ++ onFalse.signals

theorem Expr.signals_subset_reads (expr : Expr) : expr.signals ⊆ expr.reads := by
  intro name member
  induction expr with
  | number bits => cases member
  | ident own => exact member
  | word array index ih => exact List.mem_cons_of_mem array (ih member)
  | paren inner ih => exact ih member
  | binary op left right leftIh rightIh =>
    rcases List.mem_append.mp member with inLeft | inRight
    · exact List.mem_append_left _ (leftIh inLeft)
    · exact List.mem_append_right _ (rightIh inRight)
  | cond condition onTrue onFalse conditionIh trueIh falseIh =>
    simp only [signals, reads, List.mem_append] at member ⊢
    exact member.imp (Or.imp conditionIh trueIh) falseIh

@[simp] theorem Expr.reads_toPrimary (expr : Expr) : expr.toPrimary.reads = expr.reads := by
  unfold toPrimary
  split <;> rfl

@[simp] theorem Expr.reads_combine (op : BinaryOp) (left right : Expr) :
    (combine op left right).reads = left.reads ++ right.reads := by
  simp [combine, reads]

/-- The name that an assignment to an expression changes. -/
def Expr.assigned : Expr → List String
  | ident name | word name _ => [name]
  | number _ | paren _ | binary _ _ _ | cond _ _ _ => []

/-- The names whose value an assignment to an expression asks for. -/
def Expr.indexReads : Expr → List String
  | word _ index => index.reads
  | ident _ | number _ | paren _ | binary _ _ _ | cond _ _ _ => []

namespace Statement

mutual

def assigned : Statement → List String
  | blocking target _ | nonblocking target _ => target.assigned
  | cond _ onTrue onFalse => assignedAll onTrue ++ assignedAll onFalse

def assignedAll : List Statement → List String
  | [] => []
  | statement :: rest => statement.assigned ++ assignedAll rest

end

mutual

def reads : Statement → List String
  | blocking target value | nonblocking target value => target.indexReads ++ value.reads
  | cond condition onTrue onFalse => condition.reads ++ (readsAll onTrue ++ readsAll onFalse)

def readsAll : List Statement → List String
  | [] => []
  | statement :: rest => statement.reads ++ readsAll rest

end

mutual

/-- The targets of the assignments in a statement, each with its value. -/
def assignments : Statement → List (Expr × Expr)
  | blocking target value | nonblocking target value => [(target, value)]
  | cond _ onTrue onFalse => assignmentsAll onTrue ++ assignmentsAll onFalse

/-- The targets of the assignments in statements, each with its value. -/
def assignmentsAll : List Statement → List (Expr × Expr)
  | [] => []
  | statement :: rest => statement.assignments ++ assignmentsAll rest

end

end Statement

namespace Item

/-- The names whose value an item that is no group asks for. -/
def reads : Item → List String
  | declarations _ | group _ _ _ => []
  | assigns driven => driven.flatMap fun assign => assign.target.indexReads ++ assign.value.reads
  | always (.posedge clock) body => clock.reads ++ Statement.readsAll body
  | always .anyChange body => Statement.readsAll body

/-- The names that the continuous assignments of an item assign, one for each assignment. -/
def continuous : Item → List String
  | assigns driven => driven.flatMap fun assign => assign.target.assigned
  | declarations _ | always _ _ | group _ _ _ => []

/-- The names that the procedural block of an item may assign. -/
def procedural : Item → List String
  | always _ body => Statement.assignedAll body
  | declarations _ | assigns _ | group _ _ _ => []

def assigned (item : Item) : List String := item.continuous ++ item.procedural

/-- The targets of the assignments in an item that is no group, each with its value. -/
def assignments : Item → List (Expr × Expr)
  | assigns driven => driven.map fun assign => (assign.target, assign.value)
  | always _ body => Statement.assignmentsAll body
  | declarations _ | group _ _ _ => []

end Item
end Multiport
