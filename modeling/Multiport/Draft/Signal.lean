import Multiport.Netlist.Expr

namespace Multiport

/-- An expression together with the width of its values. -/
structure Signal where
  expr : Expr
  width : Nat
deriving DecidableEq, Repr

namespace Signal

def ident (name : String) (width : Nat) : Signal := ⟨.ident name, width⟩

def x (width : Nat) : Signal := ⟨.x width, width⟩

end Signal

/-- A declared array of `depth` words. -/
structure Storage where
  name : String
  width : Nat
  depth : Nat
deriving DecidableEq, Repr

namespace Storage

/-- The word at an address, as something to assign to. -/
def slot (storage : Storage) (address : Signal) : Expr := .word storage.name address.expr

def read (storage : Storage) (address : Signal) : Signal := ⟨storage.slot address, storage.width⟩

theorem isAssignable_slot (storage : Storage) (address : Signal) :
    (storage.slot address).isAssignable = true := rfl

end Storage
end Multiport
