import Multiport.Breach
import Multiport.Logic.Bits

namespace Multiport

/-- The binary operators. -/
inductive BinaryOp where
  | and
  | equal
deriving DecidableEq, Repr

def BinaryOp.symbol : BinaryOp → String
  | and => "&"
  | equal => "=="

/-- An expression over named signals and arrays. -/
inductive Expr where
  | number (bits : Bits)
  | ident (name : String)
  | word (array : String) (index : Expr)
  | paren (inner : Expr)
  | binary (op : BinaryOp) (left right : Expr)
  | cond (condition onTrue onFalse : Expr)
deriving DecidableEq, Repr

namespace Expr

/-- The `width`-bit literal of a number. -/
def constant (width value : Nat) : Expr := number (Bits.ofNat width value)

/-- The `width`-bit literal of which nothing is known. -/
def x (width : Nat) : Expr := number (Bits.x width)

/-- Literals, names, words and parenthesised expressions bind tighter than any operator. -/
def isPrimary : Expr → Bool
  | number _ | ident _ | word _ _ | paren _ => true
  | binary _ _ _ | cond _ _ _ => false

/-- Names and words of an array can be assigned to. -/
def isAssignable : Expr → Bool
  | ident _ | word _ _ => true
  | number _ | paren _ | binary _ _ _ | cond _ _ _ => false

/-- The name, if the expression is a plain one. -/
def name? : Expr → Option String
  | ident name => some name
  | _ => none

/-- Whether the expression is the literal of which nothing is known. -/
def isX : Expr → Bool
  | number bits => bits.isX
  | _ => false

/-- The expression itself if it is primary, and otherwise in parentheses. -/
def toPrimary (expr : Expr) : Expr := if expr.isPrimary then expr else paren expr

/-- A binary expression whose operands are made primary. -/
def combine (op : BinaryOp) (left right : Expr) : Expr := binary op left.toPrimary right.toPrimary

/-- The word of a named array at an index; only a plain name can be indexed. -/
def indexed (array index : Expr) : Except Breach Expr :=
  match array with
  | ident name => .ok (word name index)
  | _ => .error .indexOfNonIdentifier

/-- The text of an expression. A literal of which nothing is known shows one `x` for all bits. -/
def render : Expr → String
  | number bits =>
      if bits.isX then toString bits.width ++ "'bx"
      else toString bits.width ++ "'b" ++ bits.render
  | ident name => name
  | word array index => array ++ "[" ++ index.render ++ "]"
  | paren inner => "(" ++ inner.render ++ ")"
  | binary op left right => left.render ++ " " ++ op.symbol ++ " " ++ right.render
  | cond condition onTrue onFalse =>
      condition.render ++ " ? " ++ onTrue.render ++ " : " ++ onFalse.render

@[simp] theorem isPrimary_toPrimary (expr : Expr) : expr.toPrimary.isPrimary = true := by
  unfold toPrimary
  split
  · assumption
  · rfl

theorem toPrimary_of_isPrimary {expr : Expr} (primary : expr.isPrimary = true) :
    expr.toPrimary = expr := by
  simp [toPrimary, primary]

@[simp] theorem toPrimary_toPrimary (expr : Expr) : expr.toPrimary.toPrimary = expr.toPrimary :=
  toPrimary_of_isPrimary (isPrimary_toPrimary expr)

theorem name?_eq_some_iff {expr : Expr} {name : String} :
    expr.name? = some name ↔ expr = ident name := by
  cases expr <;> simp [name?]

theorem isAssignable_iff {expr : Expr} :
    expr.isAssignable = true ↔
      (∃ name, expr = ident name) ∨ ∃ array index, expr = word array index := by
  cases expr <;> simp [isAssignable]

end Expr
end Multiport
