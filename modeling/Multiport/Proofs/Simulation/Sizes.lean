import Multiport.Proofs.Simulation.Instance

namespace Multiport

namespace Simulator

def ticks (sim : Simulator) : List Operation → Nat
  | [] => 0
  | operation :: rest =>
      (if operation = .tick ∧ (sim.perform operation).1.isOk then 1 else 0) +
        ticks (sim.perform operation).2 rest

/-- A signal that is declared has a value of its width, if what it holds of its own has. -/
theorem width_of_valueWithin {sim : Simulator} {name : String} {width depth : Nat} {bits : Bits}
    (declared : sim.widths.get? name = some width)
    (held : ∀ own, sim.held? name = some own → own.width = width)
    (found : sim.valueWithin depth name = .ok bits) : bits.width = width := by
  cases depth with
  | zero => cases found
  | succ depth =>
    simp only [valueWithin, declared] at found
    cases own : sim.held? name with
    | some bits =>
      simp only [own, Except.ok.injEq] at found
      exact found ▸ held _ own
    | none =>
      cases driver : sim.drivers.get? name with
      | some driver =>
        simp only [own, driver] at found
        obtain ⟨value, -, same⟩ := bind_eq_ok_iff.mp found
        cases same
        exact Bits.width_resize value width
      | none =>
        cases block : sim.settled.get? name with
        | some body =>
          simp only [own, driver, block] at found
          obtain ⟨values, -, same⟩ := bind_eq_ok_iff.mp found
          cases same
          cases values.get? name with
          | none => exact Bits.width_x width
          | some value => exact Bits.width_resize value width
        | none =>
          simp only [own, driver, block, Except.ok.injEq] at found
          exact found ▸ Bits.width_x width

section

variable {sim next : Simulator}

private theorem cycle_setInput {name : String} {change : Bits → Bits}
    (done : sim.setInput name change = .ok next) : next.cycle = sim.cycle := by
  unfold setInput at done
  split at done
  · cases done
    rfl
  · split at done <;> cases done

private theorem cycle_setMemory {name : String} {address value : Nat}
    (done : sim.setMemory name address value = .ok next) : next.cycle = sim.cycle := by
  unfold setMemory at done
  split at done
  · cases done
  · split at done
    · cases done
      rfl
    · cases done

private theorem cycle_changed {outcome : Except SimulationError Simulator}
    (kept : ∀ next, outcome = .ok next → next.cycle = sim.cycle) :
    (sim.changed outcome).2.cycle = sim.cycle := by
  cases outcome with
  | ok next => exact kept next rfl
  | error error => rfl

private theorem cycle_commit (sim : Simulator) (updates : List Update) :
    (sim.commit updates).2.cycle = sim.cycle := by
  induction updates generalizing sim with
  | nil => rfl
  | cons update rest ih =>
    simp only [commit]
    split
    · rename_i next done
      obtain ⟨-, rfl⟩ := apply_eq_ok_iff.mp done
      rw [ih]
      cases update <;> rfl
    · rfl

private theorem cycle_fire (sim : Simulator) (selected : String → Bool) :
    (sim.fire selected).2.cycle = sim.cycle := by
  unfold fire
  split
  · exact cycle_commit sim _
  · rfl

/-- An operation counts a cycle exactly if it is a tick that succeeds. -/
theorem cycle_perform (sim : Simulator) (operation : Operation) :
    (sim.perform operation).2.cycle =
      sim.cycle + if operation = .tick ∧ (sim.perform operation).1.isOk then 1 else 0 := by
  cases operation with
  | set name value | setX name =>
    simp only [perform, reduceCtorEq, false_and, ↓reduceIte, Nat.add_zero]
    exact cycle_changed fun next => cycle_setInput
  | setMemory name address value =>
    simp only [perform, reduceCtorEq, false_and, ↓reduceIte, Nat.add_zero]
    exact cycle_changed fun next => cycle_setMemory
  | tick =>
    have fired := cycle_fire sim fun _ => true
    rcases outcome : sim.fire fun _ => true with ⟨answer, next⟩
    rw [outcome] at fired
    simp only [perform, tick, outcome, true_and]
    cases answer with
    | ok done => exact congrArg (· + 1) fired
    | error error => exact fired
  | posedge clock =>
    simp only [perform, posedge, reduceCtorEq, false_and, ↓reduceIte, Nat.add_zero]
    split
    · exact cycle_fire sim _
    · rfl

theorem cycle_run (sim : Simulator) (operations : List Operation) :
    (sim.run operations).cycle = sim.cycle + sim.ticks operations := by
  induction operations generalizing sim with
  | nil => rfl
  | cons operation rest ih =>
    rw [run, List.foldl_cons, ← run, ih, cycle_perform, ticks, Nat.add_assoc]

end

namespace Simulates

variable {module : Module} {sim : Simulator}

theorem width_of_held_port (state : sim.Simulates module) (distinct : module.names.Nodup)
    {port : Port} (given : port ∈ module.ports) {own : Bits}
    (held : sim.held? port.name = some own) : own.width = port.width := by
  rcases Option.or_eq_some_iff.mp held with ofInput | ⟨noInput, ofRegister⟩
  · by_cases input : port ∈ module.inputs
    · obtain ⟨bits, found, width⟩ := state.input distinct input
      rw [found] at ofInput
      cases ofInput
      exact width
    · have absent : sim.inputs.get? port.name = none := by
        refine state.inputs_eq_none fun other isInput same => input ?_
        rwa [← Module.port_eq_of_name_eq distinct (Module.inputs_subset isInput) given same]
      rw [absent] at ofInput
      cases ofInput
  · have absent : sim.registers.get? port.name = none := state.registers_eq_none
      (.inr fun width declared =>
        Module.port_name_ne_declaration_name distinct given declared rfl)
    rw [absent] at ofRegister
    cases ofRegister

/-- A declared scalar that holds a value of its own holds one of its width. -/
theorem width_of_held_declaration (state : sim.Simulates module) (distinct : module.names.Nodup)
    {declaration : Declaration} {width : Nat} (declared : declaration ∈ module.declarations)
    (dims : declaration.shape.dims = [width]) {own : Bits}
    (held : sim.held? declaration.name = some own) : own.width = width := by
  rw [held?, state.inputs_of_declaration distinct declared, Option.none_or] at held
  have unsettled : declaration.name ∉ module.settledEntries.map Prod.fst := fun settled => by
    rw [state.registers_eq_none (.inl settled)] at held
    cases held
  obtain ⟨kind, shape, name⟩ := declaration
  obtain rfl : shape = ⟨[width]⟩ := congrArg Shape.mk dims
  cases kind with
  | reg =>
    obtain ⟨bits, found, same⟩ := state.register distinct declared unsettled
    rw [found] at held
    cases held
    exact same
  | net =>
    rw [state.registers_eq_none (.inr fun other otherDeclared => ?_)] at held
    · cases held
    · cases Module.declaration_eq_of_name_eq distinct declared otherDeclared rfl

/-- A declaration of two dimensions that is run is an array, which keeps its size. -/
theorem array_of_dims (state : sim.Simulates module) (distinct : module.names.Nodup)
    {declaration : Declaration} {depth width : Nat} (supported : declaration.Supported)
    (declared : declaration ∈ module.declarations)
    (dims : declaration.shape.dims = [depth, width]) :
    ∃ array, sim.arrays.get? declaration.name = some array ∧ array.depth = depth ∧
      array.width = width ∧ array.Uniform := by
  obtain ⟨kind, shape, name⟩ := declaration
  obtain rfl : shape = ⟨[depth, width]⟩ := congrArg Shape.mk dims
  cases kind with
  | net => exact supported.elim
  | reg =>
    obtain ⟨array, found, sameWidth, sameDepth, uniform⟩ := state.array distinct declared
    exact ⟨array, found, sameDepth, sameWidth, uniform⟩

end Simulates

/-- The words of an array are found at exactly the addresses below its depth. -/
theorem memory_of_uniform {sim : Simulator} {name : String} {array : WordArray} {depth width : Nat}
    (found : sim.arrays.get? name = some array)
    (size : array.depth = depth ∧ array.width = width ∧ array.Uniform) :
    (∀ address < depth, ∃ word, sim.memory name address = .ok word ∧ word.width = width) ∧
      ∀ address, depth ≤ address →
        sim.memory name address = .error (.addressOutOfRange name address depth) := by
  obtain ⟨rfl, rfl, uniform⟩ := size
  constructor
  · intro address inside
    have word : array.words[address]? = some array.words[address] :=
      Array.getElem?_eq_getElem inside
    exact ⟨_, by simp only [memory, found, word], uniform _ (Array.getElem_mem inside)⟩
  · intro address beyond
    have nothing : array.words[address]? = none := Array.getElem?_eq_none beyond
    simp only [memory, found, nothing]

/-- Whatever a module is driven with, a signal that has a value has it at its declared width, an
array has its declared words at their declared width, and the ticks that succeed are counted. -/
theorem run_keeps_sizes {module : Module} {start : Simulator} (distinct : module.names.Nodup)
    (built : ofModule module = .ok start) (operations : List Operation) :
    (∀ port ∈ module.ports, ∀ bits, (start.run operations).get port.name = .ok bits →
      bits.width = port.width) ∧
    (∀ declaration ∈ module.declarations, ∀ width, declaration.shape.dims = [width] →
      ∀ bits, (start.run operations).get declaration.name = .ok bits → bits.width = width) ∧
    (∀ declaration ∈ module.declarations, ∀ depth width,
      declaration.shape.dims = [depth, width] →
      (∃ array, (start.run operations).arrays.get? declaration.name = some array ∧
        array.depth = depth ∧ array.width = width ∧ array.Uniform) ∧
      (∀ address < depth, ∃ word,
        (start.run operations).memory declaration.name address = .ok word ∧
          word.width = width) ∧
      ∀ address, depth ≤ address →
        (start.run operations).memory declaration.name address =
          .error (.addressOutOfRange declaration.name address depth)) ∧
    (start.run operations).cycle = start.ticks operations := by
  obtain ⟨supported, rfl⟩ := ofModule_eq_ok_iff.mp built
  have state := (simulates_elaborated module).run operations
  refine ⟨?_, ?_, ?_, ?_⟩
  · intro port given bits found
    exact width_of_valueWithin (state.width_of_port distinct given)
      (fun own => state.width_of_held_port distinct given) found
  · intro declaration declared width dims bits found
    exact width_of_valueWithin (state.width_of_declaration distinct declared dims)
      (fun own => state.width_of_held_declaration distinct declared dims) found
  · intro declaration declared depth width dims
    obtain ⟨array, found, size⟩ :=
      state.array_of_dims distinct (supported.1 _ declared) declared dims
    exact ⟨⟨array, found, size⟩, memory_of_uniform found size⟩
  · rw [cycle_run, show (elaborated module).cycle = 0 from rfl, Nat.zero_add]

/-- A module whose edge fails at its last update, after two that are carried out. -/
def tornEdge : Module where
  name := "torn"
  ports := [.input 1 "clk", .input 6 "d", .output 3 "y"]
  body := [.declarations [.reg 4 "q", .array 5 2 "words"], .assigns [⟨.ident "y", .ident "q"⟩],
    .always (.posedge (.ident "clk")) [.nonblocking (.ident "q") (.ident "d"),
      .nonblocking (.word "words" (.number (.ofNat 1 0))) (.ident "d"),
      .nonblocking (.ident "missing") (.ident "d")]]

theorem run_keeps_sizes_tornEdge :
    tornEdge.names.Nodup ∧ ofModule tornEdge = .ok (elaborated tornEdge) ∧
    ∃ sim, sim = (elaborated tornEdge).run [.set "d" 41, .tick, .setMemory "words" 1 77] ∧
      (sim.get "y" = .ok (.ofNat 3 1) ∧ (Bits.ofNat 3 1).width = 3) ∧
      (sim.get "q" = .ok (.ofNat 4 9) ∧ (Bits.ofNat 4 9).width = 4) ∧
      (sim.memory "words" 0 = .ok (.ofNat 5 9) ∧
        sim.memory "words" 2 = .error (.addressOutOfRange "words" 2 2)) ∧
      sim.cycle = 0 := by
  have distinct : tornEdge.names.Nodup := by decide
  have built : ofModule tornEdge = .ok (elaborated tornEdge) := rfl
  obtain ⟨ports, scalars, arrays, counted⟩ := run_keeps_sizes distinct built
    [.set "d" 41, .tick, .setMemory "words" 1 77]
  refine ⟨distinct, built, _, rfl, ⟨rfl, ?_⟩, ⟨rfl, ?_⟩, ⟨rfl, ?_⟩, counted⟩
  · exact ports (.output 3 "y") (by decide) _ rfl
  · exact scalars (.reg 4 "q") (by decide) 4 rfl _ rfl
  · exact (arrays (.array 5 2 "words") (by decide) 2 5 rfl).2.2 2 (by decide)

end Simulator
end Multiport
