import Multiport.Breach

namespace Multiport

/-- The dimensions of what is declared, outermost first. -/
structure Shape where
  dims : List Nat
deriving DecidableEq, Repr

namespace Shape

def rank (shape : Shape) : Nat := shape.dims.length

def width (shape : Shape) : Nat := shape.dims.foldr (· * ·) 1

/-- The size of one dimension, counted from the outermost; nothing beyond the last. -/
def size? (shape : Shape) (index : Nat) : Option Nat := shape.dims[index]?

end Shape

/-- What a declaration introduces. -/
inductive DeclarationKind where
  | net
  | reg
deriving DecidableEq, Repr

def DeclarationKind.keyword : DeclarationKind → String
  | net => "wire"
  | reg => "reg"

/-- A net, a register or an array of words. -/
structure Declaration where
  kind : DeclarationKind
  shape : Shape
  name : String
deriving DecidableEq, Repr

namespace Declaration

def net (width : Nat) (name : String) : Declaration := ⟨.net, ⟨[width]⟩, name⟩

def reg (width : Nat) (name : String) : Declaration := ⟨.reg, ⟨[width]⟩, name⟩

/-- An array of `depth` words of `width` bits. -/
def array (width depth : Nat) (name : String) : Declaration := ⟨.reg, ⟨[depth, width]⟩, name⟩

end Declaration

/-- A range of `width` bits, as it stands in a declaration. -/
def renderRange (width : Nat) : String := "[" ++ toString width ++ "-1:0]"

/-- The text of a declaration; there is none for other than one or two dimensions. -/
def Declaration.render (declaration : Declaration) : Except Breach String :=
  let keyword := declaration.kind.keyword ++ " "
  match declaration.shape.dims with
  | [depth, width] =>
      .ok (keyword ++ renderRange width ++ " " ++ declaration.name ++ renderRange depth ++ ";")
  | [width] =>
      if 1 < width then .ok (keyword ++ renderRange width ++ " " ++ declaration.name ++ ";")
      else .ok (keyword ++ declaration.name ++ ";")
  | _ => .error .undeclarableShape

/-- Whether a module reads a port or drives it. -/
inductive Direction where
  | input
  | output
deriving DecidableEq, Repr

def Direction.keyword : Direction → String
  | input => "input"
  | output => "output"

/-- A port of a module. -/
structure Port where
  direction : Direction
  width : Nat
  name : String
deriving DecidableEq, Repr

namespace Port

def input (width : Nat) (name : String) : Port := ⟨.input, width, name⟩

def output (width : Nat) (name : String) : Port := ⟨.output, width, name⟩

def isInput (port : Port) : Bool := port.direction == .input

def render (port : Port) : String :=
  let range := if 1 < port.width then renderRange port.width ++ " " else ""
  port.direction.keyword ++ " wire " ++ range ++ port.name

end Port

/-- A declaration has a text exactly if it has one or two dimensions. -/
theorem Declaration.render_eq_error_iff {declaration : Declaration} {breach : Breach} :
    declaration.render = .error breach ↔
      (declaration.shape.rank ≠ 1 ∧ declaration.shape.rank ≠ 2) ∧ breach = .undeclarableShape := by
  obtain ⟨kind, ⟨dims⟩, name⟩ := declaration
  match dims with
  | [] => simp [render, Shape.rank, eq_comm]
  | [width] =>
    simp only [render, Shape.rank]
    split <;> simp
  | [depth, width] => simp [render, Shape.rank]
  | _ :: _ :: _ :: rest => simp [render, Shape.rank, eq_comm]

end Multiport
