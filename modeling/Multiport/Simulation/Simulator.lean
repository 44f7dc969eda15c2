import Multiport.Netlist.Module
import Multiport.Simulation.Evaluation

/-! The state of a module under simulation. Inputs, clocked registers and arrays hold values; what
continuous assignments and combinational blocks drive is evaluated when it is asked for, to a
bounded depth, so that a loop is reported and not followed. -/
namespace Multiport

/-- A block that runs when its clock rises. -/
structure ClockedBlock where
  clock : String
  body : List Statement

/-- A module under simulation. -/
structure Simulator where
  widths : Table Nat
  inputs : Table Bits
  registers : Table Bits
  arrays : Table WordArray
  drivers : Table Expr
  settled : Table (List Statement)
  clocked : List ClockedBlock
  cycle : Nat

namespace Simulator

def empty : Simulator := ⟨.empty, .empty, .empty, .empty, .empty, .empty, [], 0⟩

/-- Adds a port; an input starts out unknown. -/
def addPort (sim : Simulator) (port : Port) : Simulator :=
  { sim with
    widths := sim.widths.insert port.name port.width
    inputs := if port.isInput then sim.inputs.insert port.name (.x port.width) else sim.inputs }

/-- Adds a declaration; a register or an array starts out unknown. -/
def addDeclaration (sim : Simulator) (declaration : Declaration) :
    Except SimulationError Simulator :=
  let name := declaration.name
  match declaration.kind, declaration.shape.dims with
  | .net, [width] => .ok { sim with widths := sim.widths.insert name width }
  | .reg, [width] =>
      .ok { sim with
        widths := sim.widths.insert name width
        registers := sim.registers.insert name (.x width) }
  | .reg, [depth, width] => .ok { sim with arrays := sim.arrays.insert name (.x width depth) }
  | _, _ => .error (.unsupported (.declaration name))

/-- Adds a continuous assignment; a later one to the same name replaces it. -/
def addAssign (sim : Simulator) (assign : Assign) : Except SimulationError Simulator :=
  match assign.target.name? with
  | some name => .ok { sim with drivers := sim.drivers.insert name assign.value }
  | none => .error (.unsupported (.assignment assign.target))

/-- Adds a combinational block. What it assigns is no longer a clocked register. -/
def addCombinational (sim : Simulator) (body : List Statement) : Simulator :=
  (Statement.blockingNamesAll body).foldl (fun sim name =>
    { sim with registers := sim.registers.erase name, settled := sim.settled.insert name body }) sim

/-- Adds an item that is no group and no declaration. -/
def addItem (sim : Simulator) : Item → Except SimulationError Simulator
  | .declarations _ | .group _ _ _ => .ok sim
  | .assigns driven => driven.foldlM addAssign sim
  | .always .anyChange body => .ok (sim.addCombinational body)
  | .always (.posedge clock) body =>
      match clock.name? with
      | some name => .ok { sim with clocked := sim.clocked ++ [⟨name, body⟩] }
      | none => .error (.unsupported (.clock clock))

/-- The simulator of a module in which nothing is known yet. -/
def ofModule (module : Module) : Except SimulationError Simulator := do
  let sim := module.ports.foldl addPort empty
  let sim ← module.declarations.foldlM addDeclaration sim
  module.items.foldlM addItem sim

/-- How deep the evaluation of a signal may reach through other signals. -/
def maxDepth : Nat := 1024

/-- The value that an input or a clocked register holds. -/
def held? (sim : Simulator) (name : String) : Option Bits :=
  (sim.inputs.get? name).or (sim.registers.get? name)

/-- The value of a signal, evaluated through fewer signals than the given number. -/
def valueWithin (sim : Simulator) : Nat → String → Except SimulationError Bits
  | 0, name => .error (.combinationalLoop name)
  | depth + 1, name =>
      let environment : Environment := ⟨sim.arrays.get?, sim.valueWithin depth⟩
      match sim.held? name, sim.drivers.get? name, sim.settled.get? name, sim.widths.get? name with
      | some bits, _, _, _ => .ok bits
      | none, some driver, _, width? => do
          let bits ← driver.eval environment
          return (width?.map bits.resize).getD bits
      | none, none, some body, width? => do
          let values ← Statement.settleAll environment body .empty
          let width := width?.getD 0
          return ((values.get? name).map fun bits => bits.resize width).getD (.x width)
      | none, none, none, some width => .ok (.x width)
      | none, none, none, none => .error (.unknownSignal name)

def get (sim : Simulator) (name : String) : Except SimulationError Bits :=
  sim.valueWithin (maxDepth + 1) name

/-- What expressions are worth in the present state. -/
def environment (sim : Simulator) : Environment := ⟨sim.arrays.get?, sim.get⟩

/-- The value of a signal as a number, if it is known. -/
def getWord (sim : Simulator) (name : String) : Except SimulationError (Option Nat) := do
  return (← sim.get name).toWord?

def setInput (sim : Simulator) (name : String) (change : Bits → Bits) :
    Except SimulationError Simulator :=
  if sim.inputs.contains name then .ok { sim with inputs := sim.inputs.adjust name change }
  else if sim.widths.contains name then .error (.notAnInput name)
  else .error (.unknownSignal name)

/-- Drives an input with a number, cut at the width of the input. -/
def set (sim : Simulator) (name : String) (value : Nat) : Except SimulationError Simulator :=
  sim.setInput name fun held => .ofNat held.width value

def setX (sim : Simulator) (name : String) : Except SimulationError Simulator :=
  sim.setInput name fun held => .x held.width

def memory (sim : Simulator) (name : String) (address : Nat) : Except SimulationError Bits :=
  match sim.arrays.get? name with
  | none => .error (.unknownMemory name)
  | some array =>
      match array.words[address]? with
      | some bits => .ok bits
      | none => .error (.addressOutOfRange name address array.depth)

/-- Overwrites a word of an array with a number, cut at the width of the array. -/
def setMemory (sim : Simulator) (name : String) (address value : Nat) :
    Except SimulationError Simulator :=
  match sim.arrays.get? name with
  | none => .error (.unknownMemory name)
  | some array =>
      if address < array.depth then
        .ok { sim with arrays :=
          sim.arrays.adjust name fun array => array.write address (.ofNat array.width value) }
      else .error (.addressOutOfRange name address array.depth)

/-- Carries out one update, at the width of what it changes. -/
def apply (sim : Simulator) : Update → Except SimulationError Simulator
  | .register name value =>
      if sim.registers.contains name then
        .ok { sim with registers := sim.registers.adjust name fun held => value.resize held.width }
      else .error (.unknownSignal name)
  | .word name address value =>
      if sim.arrays.contains name then
        .ok { sim with arrays := sim.arrays.adjust name fun array => array.write address value }
      else .error (.unknownMemory name)

/-- Carries out updates in order. Those before the first that fails stay. -/
def commit (sim : Simulator) : List Update → Except SimulationError Unit × Simulator
  | [] => (.ok (), sim)
  | update :: rest =>
      match sim.apply update with
      | .ok sim => sim.commit rest
      | .error error => (.error error, sim)

/-- The updates that the blocks of the selected clocks ask for in the present state. -/
def updates (sim : Simulator) (selected : String → Bool) : Except SimulationError (List Update) :=
  Statement.updatesAll sim.environment
    ((sim.clocked.filter fun block => selected block.clock).flatMap ClockedBlock.body)

/-- Runs the blocks of the selected clocks together: all of them see the state before the edge. -/
def fire (sim : Simulator) (selected : String → Bool) : Except SimulationError Unit × Simulator :=
  match sim.updates selected with
  | .ok updates => sim.commit updates
  | .error error => (.error error, sim)

/-- All clocks rise together. The cycle is counted if nothing fails. -/
def tick (sim : Simulator) : Except SimulationError Unit × Simulator :=
  match sim.fire fun _ => true with
  | (.ok (), sim) => (.ok (), { sim with cycle := sim.cycle + 1 })
  | failed => failed

def posedge (sim : Simulator) (clock : String) : Except SimulationError Unit × Simulator :=
  if sim.inputs.contains clock then sim.fire fun name => name == clock
  else (.error (.notAnInput clock), sim)

end Simulator
end Multiport
