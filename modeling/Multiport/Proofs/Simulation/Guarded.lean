import Multiport.Proofs.Simulation.Evaluates
import Multiport.Proofs.Simulation.Construction

/-! Simulation with every contract checked. Here calls inside calls are counted and may run out,
names are followed by counting up to the depth that is allowed, an operation on two vectors insists
on one width, and dimensions and combinational blocks are found by their place. Each of these may
halt the simulation; the simulator of a module does without them. -/
namespace Multiport

/-- How a simulation can end without an answer. -/
inductive Halt where
  | outOfCalls
  | unequalWidths
  | missingDimension
  | missingBlock
deriving DecidableEq, Repr

/-- What a guarded step gives, unless it halts: a value, or an error of the simulation. -/
abbrev Guarded := ExceptT SimulationError (Except Halt)

/-- What can be asked of a simulator. -/
inductive Request where
  | change (operation : Operation)
  | get (name : String)
  | getWord (name : String)
  | memory (name : String) (address : Nat)
deriving DecidableEq, Repr

/-- What a request is answered with if it succeeds. -/
inductive Reply where
  | done
  | bits (value : Bits)
  | word (value? : Option Nat)
deriving DecidableEq, Repr

/-- The answer to a request, and the state afterwards. -/
def Simulator.reply (sim : Simulator) : Request → Except SimulationError Reply × Simulator
  | .change operation =>
      let (outcome, next) := sim.perform operation
      (outcome.map fun _ => .done, next)
  | .get name => ((sim.get name).map .bits, sim)
  | .getWord name => ((sim.getWord name).map .word, sim)
  | .memory name address => ((sim.memory name address).map .bits, sim)

/-- The answers to requests one after another, whether they succeed or fail. -/
def Simulator.session (sim : Simulator) : List Request → List (Except SimulationError Reply)
  | [] => []
  | request :: rest => (sim.reply request).1 :: (sim.reply request).2.session rest

/-- Combinational blocks in order, and the place of the block that settles a name. -/
structure BlockIndex where
  blocks : List (List Statement)
  places : Table Nat

namespace Guarded

variable {Value Result : Type}

def halt (cause : Halt) : Guarded Value := ExceptT.mk (.error cause)

def answered (outcome : Except SimulationError Value) : Guarded Value := ExceptT.mk (.ok outcome)

theorem answered_bind {first : Except SimulationError Value}
    {guarded : Value → Guarded Result} {next : Value → Except SimulationError Result}
    (rest : ∀ value, guarded value = answered (next value)) :
    (answered first >>= guarded) = answered (first >>= next) := by
  cases first with
  | ok value => exact rest value
  | error error => rfl

def size (shape : Shape) (dimension : Nat) : Guarded Nat :=
  match shape.size? dimension with
  | some size => return size
  | none => halt .missingDimension

/-- What an operation gives on two vectors that must have one width. -/
def sameWidth (result? : Option Bits) : Guarded Bits :=
  match result? with
  | some bits => return bits
  | none => halt .unequalWidths

end Guarded

namespace BlockIndex

def empty : BlockIndex := ⟨[], .empty⟩

def block (index : BlockIndex) (place : Nat) : Guarded (List Statement) :=
  match index.blocks[place]? with
  | some body => return body
  | none => Guarded.halt .missingBlock

/-- Adds a block, which from now on settles the names it assigns. -/
def add (index : BlockIndex) (body : List Statement) : BlockIndex where
  blocks := index.blocks ++ [body]
  places := (Statement.blockingNamesAll body).foldl
    (fun places name => places.insert name index.blocks.length) index.places

def addItem (index : BlockIndex) : Item → BlockIndex
  | .always .anyChange body => index.add body
  | .declarations _ | .assigns _ | .always (.posedge _) _ | .group _ _ _ => index

def ofItems (items : List Item) : BlockIndex := items.foldl addItem empty

end BlockIndex

namespace Guarded

section

variable (sim : Simulator) (index : BlockIndex)

mutual

/-- The value of a signal that is reached through the given number of others. -/
def value : Nat → Nat → String → Guarded Bits
  | 0, _, _ => halt .outOfCalls
  | calls + 1, depth, name =>
      if Simulator.maxDepth < depth then throw (.combinationalLoop name)
      else
        match (sim.inputs.get? name).or (sim.registers.get? name) with
        | some bits => return bits
        | none =>
          match sim.drivers.get? name with
          | some driver => do
              let bits ← eval calls (depth + 1) .empty driver
              match sim.widths.get? name with
              | some width => return bits.resize width
              | none => return bits
          | none =>
            match index.places.get? name with
            | some place => do
                let body ← index.block place
                let values ← settleAll calls (depth + 1) body .empty
                let width := (sim.widths.get? name).getD 0
                match values.get? name with
                | some bits => return bits.resize width
                | none => return .x width
            | none =>
              match sim.widths.get? name with
              | some width => return .x width
              | none => throw (.unknownSignal name)

/-- The value of an expression where some names have values of their own. -/
def eval : Nat → Nat → Table Bits → Expr → Guarded Bits
  | 0, _, _, _ => halt .outOfCalls
  | _ + 1, _, _, .number bits => return bits
  | calls + 1, depth, own, .ident name =>
      match own.get? name with
      | some bits => return bits
      | none => value calls depth name
  | calls + 1, depth, own, .word array address =>
      match sim.arrays.get? array with
      | none => throw (.unknownMemory array)
      | some words => do return words.read (← eval calls depth own address)
  | calls + 1, depth, own, .paren inner => eval calls depth own inner
  | calls + 1, depth, own, .binary op left right => do
      let leftValue ← eval calls depth own left
      let rightValue ← eval calls depth own right
      match op with
      | .equal => return leftValue.eqArith rightValue
      | .and =>
          if leftValue.width ≠ rightValue.width then
            throw (.unsupported (.operandWidths (.binary op left right)))
          sameWidth (leftValue.and? rightValue)
  | calls + 1, depth, own, .cond condition onTrue onFalse => do
      let decided ← eval calls depth own condition
      if decided.isTrue then eval calls depth own onTrue
      else if decided.isKnown then eval calls depth own onFalse
      else
        let trueValue ← eval calls depth own onTrue
        let falseValue ← eval calls depth own onFalse
        if trueValue.width ≠ falseValue.width then
          throw (.unsupported (.branchWidths (.cond condition onTrue onFalse)))
        sameWidth (trueValue.merge? falseValue)

/-- Runs the statements of a combinational block in order. -/
def settleAll : Nat → Nat → List Statement → Table Bits → Guarded (Table Bits)
  | 0, _, _, _ => halt .outOfCalls
  | _ + 1, _, [], own => return own
  | calls + 1, depth, .blocking target value :: rest, own => do
      let bits ← eval calls depth own value
      match target.name? with
      | some name => settleAll calls depth rest (own.insert name bits)
      | none => throw (.unsupported (.assignment target))
  | _ + 1, _, .nonblocking _ _ :: _, _ => throw (.unsupported .nonblockingWhenCombinational)
  | calls + 1, depth, .cond condition onTrue onFalse :: rest, own => do
      let decided ← eval calls depth own condition
      let own ← settleAll calls depth (if decided.isTrue then onTrue else onFalse) own
      settleAll calls depth rest own

end

/-- The update that a nonblocking assignment asks for, once its value is known. -/
def target (calls : Nat) (bits : Bits) : Expr → Guarded (List Update)
  | .ident name => return [.register name bits]
  | .word array address => do
      match (← eval sim index calls 0 .empty address).toWord? with
      | some address => return [.word array address bits]
      | none => return []
  | other => throw (.unsupported (.assignment other))

/-- The updates that the statements of a clocked block ask for, in order. -/
def updatesAll : Nat → List Statement → Guarded (List Update)
  | 0, _ => halt .outOfCalls
  | _ + 1, [] => return []
  | _ + 1, .blocking _ _ :: _ => throw (.unsupported .blockingWhenClocked)
  | calls + 1, .nonblocking place value :: rest => do
      let bits ← eval sim index calls 0 .empty value
      let first ← target sim index calls bits place
      return first ++ (← updatesAll calls rest)
  | calls + 1, .cond condition onTrue onFalse :: rest => do
      let decided ← eval sim index calls 0 .empty condition
      let first ← updatesAll calls (if decided.isTrue then onTrue else onFalse)
      return first ++ (← updatesAll calls rest)

/-- The updates that the blocks of the selected clocks ask for, block by block. -/
def updates (calls : Nat) (selected : String → Bool) : Guarded (List Update) :=
  (sim.clocked.filter fun block => selected block.clock).foldlM
    (fun updates block => do return updates ++ (← updatesAll sim index calls block.body)) []

def fire (calls : Nat) (selected : String → Bool) :
    Except Halt (Except SimulationError Unit × Simulator) := do
  match ← (updates sim index calls selected).run with
  | .ok updates => return sim.commit updates
  | .error error => return (.error error, sim)

def perform (calls : Nat) : Operation → Except Halt (Except SimulationError Unit × Simulator)
  | .tick => do
      match ← fire sim index calls fun _ => true with
      | (.ok (), sim) => return (.ok (), { sim with cycle := sim.cycle + 1 })
      | failed => return failed
  | .posedge clock =>
      if sim.inputs.contains clock then fire sim index calls fun name => name == clock
      else return (.error (.notAnInput clock), sim)
  | operation => return sim.perform operation

end

/-- The answer to a request, and the state afterwards. -/
def reply (sim : Simulator) (index : BlockIndex) (calls : Nat) :
    Request → Except Halt (Except SimulationError Reply × Simulator)
  | .change operation => do
      let (outcome, next) ← perform sim index calls operation
      return (outcome.map fun _ => .done, next)
  | .get name => do
      let found ← (value sim index calls 0 name).run
      return (found.map .bits, sim)
  | .getWord name => do
      let found ← (value sim index calls 0 name).run
      return (found.map fun bits => .word bits.toWord?, sim)
  | .memory name address => return ((sim.memory name address).map .bits, sim)

/-- The answers to requests one after another, unless one of them halts. -/
def session (index : BlockIndex) (calls : Nat) :
    Simulator → List Request → Except Halt (List (Except SimulationError Reply))
  | _, [] => return []
  | sim, request :: rest => do
      let answered ← reply sim index calls request
      return answered.1 :: (← session index calls answered.2 rest)

def addDeclaration (sim : Simulator) (declaration : Declaration) : Guarded Simulator :=
  let name := declaration.name
  let shape := declaration.shape
  match declaration.kind, shape.rank with
  | .net, 1 => return { sim with widths := sim.widths.insert name shape.width }
  | .reg, 1 =>
      return { sim with
        widths := sim.widths.insert name shape.width
        registers := sim.registers.insert name (.x shape.width) }
  | .reg, 2 => do
      let width ← size shape 1
      let depth ← size shape 0
      return { sim with arrays := sim.arrays.insert name (.x width depth) }
  | _, _ => throw (.unsupported (.declaration name))

/-- Adds an item, and a combinational block to the others. -/
def addItem (built : Simulator × BlockIndex) (item : Item) : Guarded (Simulator × BlockIndex) := do
  return (← answered (built.1.addItem item), built.2.addItem item)

/-- The simulator of a module and its combinational blocks. -/
def ofModule (module : Module) : Guarded (Simulator × BlockIndex) := do
  let sim := module.ports.foldl Simulator.addPort .empty
  let sim ← module.declarations.foldlM addDeclaration sim
  module.items.foldlM addItem (sim, .empty)

end Guarded
end Multiport
