import Multiport.Netlist.Declaration
import Multiport.Netlist.Statement

namespace Multiport

/-- A continuous assignment. -/
structure Assign where
  target : Expr
  value : Expr
deriving DecidableEq, Repr

def Assign.render (assign : Assign) : String :=
  "assign " ++ assign.target.render ++ " = " ++ assign.value.render ++ ";"

/-- What starts a procedural block. -/
inductive Event where
  | posedge (clock : Expr)
  | anyChange
deriving DecidableEq, Repr

def Event.render : Event → String
  | posedge clock => "always @(posedge " ++ clock.render ++ ")"
  | anyChange => "always @*"

/-- An item of a module. -/
inductive Item where
  | declarations (declared : List Declaration)
  | assigns (driven : List Assign)
  | always (event : Event) (body : List Statement)
  | group (before : String) (after : Option String) (items : List Item)
deriving Repr

namespace Item

mutual

/-- The items below a group, in order, without the groups. -/
def flatten : Item → List Item
  | group _ _ items => flattenAll items
  | declarations declared => [declarations declared]
  | assigns driven => [assigns driven]
  | always event body => [always event body]

/-- The items of a list in order, without the groups. -/
def flattenAll : List Item → List Item
  | [] => []
  | item :: rest => item.flatten ++ flattenAll rest

end

/-- The comments around a group and its items between them. -/
def renderGroup (before : String) (after : Option String) (items : String) : String :=
  let closing := match after with
    | some comment => "\n/* " ++ comment ++ " */"
    | none => ""
  "/*\n" ++ Text.indent indentation before ++ "\n*/\n" ++ items ++ closing

mutual

def render : Item → Except Breach String
  | declarations declared => return Text.joinLines (← declared.mapM Declaration.render)
  | assigns driven => .ok (Text.joinLines (driven.map Assign.render))
  | always event body =>
      let inside := Text.indent indentation (Statement.renderBlock body)
      .ok (event.render ++ " begin\n" ++ inside ++ "\nend")
  | group before after items =>
      return renderGroup before after ("\n\n".intercalate (← renderAll items))

def renderAll : List Item → Except Breach (List String)
  | [] => .ok []
  | item :: rest => do
      let text ← item.render
      return text :: (← renderAll rest)

end

/-- The declarations of an item that is no group. -/
def declared : Item → List Declaration
  | declarations declared => declared
  | assigns _ | always _ _ | group _ _ _ => []

/-- The procedural block of an item that is no group. -/
def block? : Item → Option (Event × List Statement)
  | always event body => some (event, body)
  | declarations _ | assigns _ | group _ _ _ => none

theorem flattenAll_eq_flatMap (items : List Item) : flattenAll items = items.flatMap flatten := by
  induction items with
  | nil => rfl
  | cons item rest ih => simp [flattenAll, ih]

@[simp] theorem flattenAll_append (left right : List Item) :
    flattenAll (left ++ right) = flattenAll left ++ flattenAll right := by
  simp [flattenAll_eq_flatMap]

@[simp] theorem flatten_group (before : String) (after : Option String) (items : List Item) :
    (group before after items).flatten = flattenAll items := by
  simp [flatten]

end Item

/-- A module of the netlist language. -/
structure Module where
  name : String
  ports : List Port
  body : List Item
deriving Repr

namespace Module

def inputs (module : Module) : List Port := module.ports.filter Port.isInput

def outputs (module : Module) : List Port := module.ports.filter fun port => !port.isInput

/-- The items in order, without the groups. -/
def items (module : Module) : List Item := Item.flattenAll module.body

def declarations (module : Module) : List Declaration := module.items.flatMap Item.declared

def blocks (module : Module) : List (Event × List Statement) := module.items.filterMap Item.block?

/-- The text of a module, without a line feed at the end. -/
def render (module : Module) : Except Breach String := do
  let items ← Item.renderAll module.body
  let ports := Text.indent indentation (",\n".intercalate (module.ports.map Port.render))
  return "`timescale 1ns / 1ps\n\nmodule " ++ module.name ++ "\n(\n" ++ ports ++ "\n);\n\n" ++
    "\n\n".intercalate items ++ "\n\nendmodule"

end Module
end Multiport
