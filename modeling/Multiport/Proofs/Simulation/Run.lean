import Multiport.Draft.Signal
import Multiport.Proofs.Simulation.Updates

namespace Multiport

/-- What can be done to a simulator. -/
inductive Operation where
  | set (name : String) (value : Nat)
  | setX (name : String)
  | setMemory (name : String) (address value : Nat)
  | tick
  | posedge (clock : String)
deriving DecidableEq, Repr

/-- Whether the operation, if it succeeds, is an edge of the clock. -/
def Operation.isEdgeOf (clock : Signal) : Operation → Bool
  | tick => true
  | posedge name => clock.expr.name? == some name
  | set _ _ | setX _ | setMemory _ _ _ => false

def Operation.isEdge : Operation → Bool
  | tick | posedge _ => true
  | set _ _ | setX _ | setMemory _ _ _ => false

/-- Whether the operation makes a clock of the given name rise, if it succeeds. -/
def Operation.selects : Operation → String → Bool
  | tick => fun _ => true
  | posedge clock => fun name => name == clock
  | set _ _ | setX _ | setMemory _ _ _ => fun _ => false

theorem Operation.isEdgeOf_eq_selects {clock : Signal} {name : String}
    (named : clock.expr = .ident name) (operation : Operation) :
    operation.isEdgeOf clock = operation.selects name := by
  cases operation with
  | posedge rising => simp [isEdgeOf, selects, named, Expr.name?]
  | tick | set name value | setX name | setMemory name address value => rfl

theorem Operation.isEdge_of_isEdgeOf {clock : Signal} {operation : Operation}
    (own : operation.isEdgeOf clock = true) : operation.isEdge = true := by
  cases operation with
  | tick | posedge rising => rfl
  | set name value | setX name | setMemory name address value => cases own

/-- Every word of an array has the width of the array. -/
def WordArray.Uniform (array : WordArray) : Prop := ∀ word ∈ array.words, word.width = array.width

/-- The word at an address has the width of the array, whatever the address. -/
theorem WordArray.width_read {array : WordArray} (uniform : array.Uniform) (address : Bits) :
    (array.read address).width = array.width := by
  unfold read
  cases address.toWord? with
  | none => simp
  | some index =>
    simp only [Option.bind_some]
    cases found : array.words[index]? with
    | none => simp
    | some word => exact uniform word (Array.mem_of_getElem? found)

namespace Simulator

/-- What is answered to a change of the state, and the state afterwards. -/
def changed (sim : Simulator) :
    Except SimulationError Simulator → Except SimulationError Unit × Simulator
  | .ok next => (.ok (), next)
  | .error error => (.error error, sim)

def perform (sim : Simulator) : Operation → Except SimulationError Unit × Simulator
  | .set name value => sim.changed (sim.set name value)
  | .setX name => sim.changed (sim.setX name)
  | .setMemory name address value => sim.changed (sim.setMemory name address value)
  | .tick => sim.tick
  | .posedge clock => sim.posedge clock

/-- The state after operations, whether they succeed or fail. -/
def run (sim : Simulator) (operations : List Operation) : Simulator :=
  operations.foldl (fun sim operation => (sim.perform operation).2) sim

@[simp] theorem run_nil (sim : Simulator) : sim.run [] = sim := rfl

theorem run_concat (sim : Simulator) (operations : List Operation) (operation : Operation) :
    sim.run (operations ++ [operation]) = ((sim.run operations).perform operation).2 := by
  simp [run]

/-- The states just before the edges of a clock, the latest first. -/
def edges (clock : Signal) (sim : Simulator) : List Operation → List Simulator
  | [] => []
  | operation :: rest =>
      edges clock (sim.perform operation).2 rest ++
        if operation.isEdgeOf clock then [sim] else []

theorem edges_concat (clock : Signal) (sim : Simulator) (operations : List Operation)
    (operation : Operation) :
    sim.edges clock (operations ++ [operation]) =
      (if operation.isEdgeOf clock then [sim.run operations] else []) ++
        sim.edges clock operations := by
  induction operations generalizing sim with
  | nil => simp [edges]
  | cons first rest ih =>
    rw [List.cons_append, edges, ih, edges, List.append_assoc]
    rfl

/-- The state before the given number of latest edges of a clock, or the present one for none. -/
def past? (start : Simulator) (clock : Signal) (operations : List Operation) (count : Nat) :
    Option Simulator :=
  (start.run operations :: start.edges clock operations)[count]?

/-- The value of a signal; unknown if it cannot be evaluated. -/
def reading (sim : Simulator) (signal : Signal) : Bits :=
  match signal.expr.eval sim.environment with
  | .ok bits => bits
  | .error _ => .x signal.width

/-- The value that a signal had before the given number of latest edges of a clock; unknown if
there were fewer edges. -/
def sample (start : Simulator) (operations : List Operation) (clock : Signal) (count : Nat)
    (signal : Signal) : Bits :=
  match start.past? clock operations count with
  | some past => past.reading signal
  | none => .x signal.width

theorem reading_of_eval {sim : Simulator} {signal : Signal} {bits : Bits}
    (evaluated : signal.expr.eval sim.environment = .ok bits) : sim.reading signal = bits := by
  simp [reading, evaluated]

theorem past?_concat_edge (start : Simulator) {clock : Signal} (operations : List Operation)
    {operation : Operation} (edge : operation.isEdgeOf clock = true) (count : Nat) :
    start.past? clock (operations ++ [operation]) (count + 1) =
      start.past? clock operations count := by
  simp [past?, edges_concat, edge]

/-- What is no edge of a clock leaves the states before its edges as they are. -/
theorem past?_concat_other (start : Simulator) {clock : Signal} (operations : List Operation)
    {operation : Operation} (other : operation.isEdgeOf clock = false) (count : Nat) :
    start.past? clock (operations ++ [operation]) (count + 1) =
      start.past? clock operations (count + 1) := by
  simp [past?, edges_concat, other]

/-- An edge is a firing of the blocks of its clocks, and may be counted. -/
theorem perform_edge {sim : Simulator} {operation : Operation} (edge : operation.isEdge = true)
    (input : ∀ clock, operation = .posedge clock → sim.inputs.contains clock = true) :
    (sim.perform operation).1 = (sim.fire operation.selects).1 ∧
      ∃ count, (sim.perform operation).2 =
        { (sim.fire operation.selects).2 with cycle := count } := by
  cases operation with
  | tick =>
    rcases outcome : sim.fire fun _ => true with ⟨answer, next⟩
    simp only [perform, tick, Operation.selects, outcome]
    cases answer with
    | ok done => exact ⟨rfl, _, rfl⟩
    | error error => exact ⟨rfl, next.cycle, rfl⟩
  | posedge clock =>
    simp only [perform, posedge, input clock rfl, ↓reduceIte, Operation.selects]
    exact ⟨trivial, _, rfl⟩
  | set name value | setX name | setMemory name address value => cases edge

theorem exists_fire_of_perform {sim : Simulator} {operation : Operation}
    (edge : operation.isEdge = true) (success : (sim.perform operation).1 = .ok ()) :
    ∃ next count, sim.fire operation.selects = (.ok (), next) ∧
      (sim.perform operation).2 = { next with cycle := count } := by
  have input : ∀ clock, operation = .posedge clock → sim.inputs.contains clock = true := by
    rintro clock rfl
    cases contained : sim.inputs.contains clock with
    | true => rfl
    | false => simp [perform, posedge, contained] at success
  obtain ⟨answers, count, becomes⟩ := perform_edge edge input
  exact ⟨_, count, Prod.ext (answers.symm.trans success) rfl, becomes⟩

theorem registers_perform {sim : Simulator} {operation : Operation}
    (other : operation.isEdge = false) : (sim.perform operation).2.registers = sim.registers := by
  cases operation with
  | set name value | setX name =>
    simp only [perform, changed, set, setX, setInput]
    split
    · rename_i next done
      split at done
      · cases done
        rfl
      · split at done <;> cases done
    · rfl
  | setMemory name address value =>
    simp only [perform, changed, setMemory]
    split
    · rename_i next done
      split at done
      · cases done
      · split at done
        · cases done
          rfl
        · cases done
    · rfl
  | tick | posedge clock => cases other

/-- Two states have the same names, widths and logic. -/
structure Alike (before after : Simulator) : Prop where
  widths : after.widths = before.widths
  drivers : after.drivers = before.drivers
  settled : after.settled = before.settled
  clocked : after.clocked = before.clocked
  inputs : ∀ name,
    (after.inputs.get? name).map Bits.width = (before.inputs.get? name).map Bits.width
  registers : ∀ name,
    (after.registers.get? name).map Bits.width = (before.registers.get? name).map Bits.width
  arrays : ∀ name, (after.arrays.get? name).map (fun array => (array.width, array.depth)) =
    (before.arrays.get? name).map fun array => (array.width, array.depth)
  uniform : (∀ name array, before.arrays.get? name = some array → array.Uniform) →
    ∀ name array, after.arrays.get? name = some array → array.Uniform

namespace Alike

theorem refl (sim : Simulator) : sim.Alike sim :=
  ⟨rfl, rfl, rfl, rfl, fun _ => rfl, fun _ => rfl, fun _ => rfl, id⟩

theorem trans {first middle last : Simulator} (earlier : first.Alike middle)
    (later : middle.Alike last) : first.Alike last where
  widths := later.widths.trans earlier.widths
  drivers := later.drivers.trans earlier.drivers
  settled := later.settled.trans earlier.settled
  clocked := later.clocked.trans earlier.clocked
  inputs name := (later.inputs name).trans (earlier.inputs name)
  registers name := (later.registers name).trans (earlier.registers name)
  arrays name := (later.arrays name).trans (earlier.arrays name)
  uniform uniform := later.uniform (earlier.uniform uniform)

end Alike

private theorem map_width_adjust (table : Table Bits) (key : String) {change : Bits → Bits}
    (kept : ∀ bits, (change bits).width = bits.width) (name : String) :
    ((table.adjust key change).get? name).map Bits.width = (table.get? name).map Bits.width := by
  rw [Table.get?_adjust]
  split
  · cases table.get? name <;> simp [kept]
  · rfl

private theorem uniform_write {array : WordArray} (uniform : array.Uniform) (address : Nat)
    (value : Bits) : (array.write address value).Uniform := by
  intro word member
  rcases Array.mem_or_eq_of_mem_setIfInBounds member with before | rfl
  · exact uniform word before
  · exact Bits.width_resize value array.width

private theorem alike_adjust_inputs (sim : Simulator) (name : String) {change : Bits → Bits}
    (kept : ∀ bits, (change bits).width = bits.width) :
    sim.Alike { sim with inputs := sim.inputs.adjust name change } :=
  { Alike.refl sim with inputs := map_width_adjust sim.inputs name kept }

private theorem alike_write (sim : Simulator) (name : String) (address : Nat)
    (value : WordArray → Bits) :
    sim.Alike
      { sim with
        arrays := sim.arrays.adjust name fun array => array.write address (value array) } :=
  { Alike.refl sim with
    arrays := by
      intro key
      rw [Table.get?_adjust]
      split
      · cases sim.arrays.get? key <;> simp
      · rfl
    uniform := by
      intro uniform key array found
      rw [Table.get?_adjust] at found
      split at found
      · obtain ⟨before, held, rfl⟩ := Option.map_eq_some_iff.mp found
        exact uniform_write (uniform key before held) address (value before)
      · exact uniform key array found }

private theorem alike_changed {sim : Simulator} {outcome : Except SimulationError Simulator}
    (kept : ∀ next, outcome = .ok next → sim.Alike next) :
    sim.Alike (sim.changed outcome).2 := by
  cases outcome with
  | ok next => exact kept next rfl
  | error error => exact .refl sim

private theorem alike_setInput {sim next : Simulator} {name : String} {change : Bits → Bits}
    (kept : ∀ bits, (change bits).width = bits.width)
    (done : sim.setInput name change = .ok next) : sim.Alike next := by
  unfold setInput at done
  split at done
  · cases done
    exact alike_adjust_inputs sim name kept
  · split at done <;> cases done

private theorem alike_setMemory {sim next : Simulator} {name : String} {address value : Nat}
    (done : sim.setMemory name address value = .ok next) : sim.Alike next := by
  unfold setMemory at done
  split at done
  · cases done
  · split at done
    · cases done
      exact alike_write sim name address fun array => .ofNat array.width value
    · cases done

theorem alike_applied (sim : Simulator) (update : Update) :
    sim.Alike (sim.applied update) := by
  cases update with
  | register name value =>
    exact { Alike.refl sim with
      registers := map_width_adjust sim.registers name fun held => value.width_resize held.width }
  | word name address value => exact alike_write sim name address fun _ => value

theorem alike_commit (sim : Simulator) (updates : List Update) :
    sim.Alike (sim.commit updates).2 := by
  induction updates generalizing sim with
  | nil => exact .refl sim
  | cons update rest ih =>
    simp only [commit]
    split
    · rename_i next done
      obtain ⟨-, rfl⟩ := apply_eq_ok_iff.mp done
      exact (alike_applied sim update).trans (ih _)
    · exact .refl sim

theorem alike_fire (sim : Simulator) (selected : String → Bool) :
    sim.Alike (sim.fire selected).2 := by
  unfold fire
  split
  · exact alike_commit sim _
  · exact .refl sim

/-- No operation changes the shape of a state, not even one that fails. -/
theorem alike_perform (sim : Simulator) (operation : Operation) :
    sim.Alike (sim.perform operation).2 := by
  cases operation with
  | set name value =>
    exact alike_changed fun next => alike_setInput fun held => Bits.width_ofNat held.width value
  | setX name => exact alike_changed fun next => alike_setInput fun held => Bits.width_x held.width
  | setMemory name address value => exact alike_changed fun next => alike_setMemory
  | tick =>
    have fired := alike_fire sim fun _ => true
    simp only [perform, tick]
    split
    · rename_i next done
      rw [done] at fired
      exact { fired with }
    · exact fired
  | posedge clock =>
    simp only [perform, posedge]
    split
    · exact alike_fire sim _
    · exact .refl sim

theorem alike_run (sim : Simulator) (operations : List Operation) :
    sim.Alike (sim.run operations) := by
  induction operations generalizing sim with
  | nil => exact .refl sim
  | cons operation rest ih => exact (alike_perform sim operation).trans (ih _)

end Simulator
end Multiport
