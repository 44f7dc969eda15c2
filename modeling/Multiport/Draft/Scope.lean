import Multiport.Text.Lines

namespace Multiport

/-- The scopes entered so far, outermost first. -/
structure Scope where
  names : List String
deriving DecidableEq, Repr

namespace Scope

def top : Scope := ⟨[]⟩

/-- The scope of the given name inside this one. -/
def enter (scope : Scope) (name : String) : Scope := ⟨scope.names ++ [name]⟩

/-- The common beginning of the names made in this scope; the top scope has none. -/
def label? (scope : Scope) : Option String :=
  if scope.names.isEmpty then none else some ("_".intercalate scope.names)

def qualify (scope : Scope) (name : String) : String :=
  (Text.joinPresent "_" [scope.label?, some name]).getD ""

@[simp] theorem label?_top : top.label? = none := rfl

theorem label?_eq_none_iff {scope : Scope} : scope.label? = none ↔ scope = top := by
  obtain ⟨names⟩ := scope
  cases names <;> simp [label?, top]

@[simp] theorem qualify_top (name : String) : top.qualify name = name := by
  simp [qualify, Text.joinPresent, top, label?]

end Scope
end Multiport
