import Multiport.Proofs.Memory.Locality
import Multiport.Proofs.Memory.Storage

namespace Multiport

private theorem length_filter_mem_le_one {Element Value : Type} [DecidableEq Value]
    {elements : List Element} {view : Element → List Value}
    (distinct : (elements.flatMap view).Nodup) (value : Value) :
    (elements.filter fun element => value ∈ view element).length ≤ 1 := by
  have apart := (List.nodup_flatMap.mp distinct).2.filter fun element => value ∈ view element
  match holding : elements.filter fun element => value ∈ view element with
  | [] => exact Nat.zero_le 1
  | [_] => exact Nat.le_refl 1
  | first :: second :: _ =>
    have inside : ∀ element ∈ [first, second], value ∈ view element := by
      intro element member
      have held : element ∈ elements.filter fun element => value ∈ view element := by
        rw [holding]
        exact List.mem_of_mem_take (i := 2) member
      simpa using (List.mem_filter.mp held).2
    rw [holding, List.pairwise_cons] at apart
    exact absurd (inside second (by simp))
      (apart.1 second List.mem_cons_self (inside first (by simp)))

namespace Memory

/-- From every state that operations lead to, a tick comes to the same as one edge of each clock,
in any order in which those that write come in theirs. What the blocks of a clock ask for depends on
the inputs of its port and on the registers that they assign themselves, and on nothing else. -/
structure Serialises (start : Simulator) (interface : Interface) : Prop where
  tick : ∀ (operations : List Operation) (order : List String),
    (order.map (.ident · 1)).Perm interface.clocks →
    interface.storingClocks.Sublist (order.map (.ident · 1)) →
    ∃ last, (start.run operations).posedges order = (.ok (), last) ∧
      last.cycle = (start.run operations).cycle ∧
      (start.run operations).tick = (.ok (), { last with cycle := last.cycle + 1 })
  isolated : ∀ (first second : List Operation) (name : String) (inputs : List Signal),
    .ident name 1 :: inputs ∈ interface.tuples →
    (∀ signal ∈ inputs, (start.run first).reading signal = (start.run second).reading signal) →
    (∀ block ∈ start.clocked, block.clock = name → ∀ register ∈ Statement.assignedAll block.body,
      (start.run first).registers.get? register = (start.run second).registers.get? register) →
    (start.run first).updates (· == name) = (start.run second).updates (· == name)

namespace Layout.Describes

variable {layout : Layout} {module : Module} {descriptor : Descriptor} {sim : Simulator}

private theorem posedges_eq (describes : layout.Describes module descriptor) {origin : Simulator}
    (originState : origin.Simulates module) {order : List String} (distinct : order.Nodup)
    (clocks : ∀ name ∈ order, ∃ circuit ∈ layout.circuits, circuit.clock.expr = .ident name)
    (state : sim.Simulates module)
    (agrees : ∀ circuit ∈ layout.circuits, ∀ name ∈ order, circuit.clock.expr = .ident name →
      circuit.Agrees origin sim) :
    sim.posedges order = (.ok (),
      (order.flatMap fun name => origin.demands (· == name)).foldl Simulator.applied sim) := by
  induction order generalizing sim with
  | nil => rfl
  | cons name rest ih =>
    -- An edge of one port moves no register of another, so the ports to come still agree.
    obtain ⟨absent, others⟩ := List.nodup_cons.mp distinct
    obtain ⟨circuit, member, named⟩ := clocks name List.mem_cons_self
    obtain ⟨port, given, portNamed⟩ := describes.clock member
    have input : sim.inputs.contains name = true := by
      obtain ⟨bits, found, -⟩ := state.input describes.distinct given
      obtain rfl : port.name = name := by simpa [named] using portNamed.symm
      simp [Table.contains, found]
    have asked : origin.demands (· == name) = sim.demands (· == name) :=
      describes.demands_congr originState state member named
        (agrees circuit member name List.mem_cons_self named)
    have step := describes.posedge_eq state input
    have after := ih others (fun other inRest => clocks other (List.mem_cons_of_mem _ inRest))
      (state.trans (Simulator.alike_perform sim (.posedge name)))
      (fun other otherMember clock inRest otherNamed =>
        (agrees other otherMember clock (List.mem_cons_of_mem _ inRest) otherNamed).trans
          (describes.agrees_posedge state otherMember otherNamed
            (fun same => absent (same ▸ inRest)) input))
    rw [Simulator.perform, step] at after
    rw [Simulator.posedges, step, List.flatMap_cons, List.foldl_append, asked]
    exact after

private theorem clocks_of_storing_blocks (describes : layout.Describes module descriptor)
    (state : sim.Simulates module) :
    (sim.clocked.filter fun block =>
        layout.storage.name ∈ Statement.assignedAll block.body).map
      (fun block => Signal.ident block.clock 1) = layout.interface.storingClocks := by
  have readWrites : ∀ plan ∈ layout.readWrite,
      ((plan.circuit layout.storage).logic.flatMap Item.clockedBlocks).map
        (fun block => Signal.ident block.clock 1) = [plan.port.clock] := by
    intro plan member
    obtain ⟨port, -, named⟩ := describes.clock (mem_circuits_of_readWrite member)
    have single := (describes.widths_readWrite member).1
    rw [ReadWritePlan.clockedBlocks_logic named, List.map_singleton, Signal.ident, ← named,
      ← single]
    rfl
  have writes : ∀ plan ∈ layout.write,
      ((plan.circuit layout.storage).logic.flatMap Item.clockedBlocks).map
        (fun block => Signal.ident block.clock 1) = [plan.port.clock] := by
    intro plan member
    obtain ⟨port, -, named⟩ := describes.clock (mem_circuits_of_write member)
    have single := (describes.widths_write member).1
    rw [WritePlan.clockedBlocks_logic named, List.map_singleton, Signal.ident, ← named, ← single]
    rfl
  rw [describes.storing_blocks state, List.map_flatMap, circuits, List.flatMap_append,
    List.flatMap_append, List.flatMap_map, List.flatMap_map, List.flatMap_map,
    List.flatMap_congr readWrites, List.flatMap_congr writes]
  simp [ReadPlan.circuit, flatMap_nothing, Interface.storingClocks, interface, Function.comp_def,
    ← List.map_eq_flatMap]

private theorem clock_mem_order (describes : layout.Describes module descriptor)
    (state : sim.Simulates module) {order : List String}
    (all : (order.map (Signal.ident · 1)).Perm layout.interface.clocks) {block : ClockedBlock}
    (member : block ∈ sim.clocked) : block.clock ∈ order := by
  obtain ⟨circuit, inLayout, named, -⟩ := describes.circuit_of_mem_clocked state member
  have listed : circuit.clock ∈ layout.interface.clocks := by
    rw [layout.clocks_eq]
    exact List.mem_map_of_mem inLayout
  obtain ⟨name, inOrder, same⟩ := List.mem_map.mp (all.symm.subset listed)
  rw [← same, Signal.ident, Expr.ident.injEq] at named
  exact named ▸ inOrder

private theorem assigning_ordered (describes : layout.Describes module descriptor)
    (state : sim.Simulates module) {order : List String}
    (all : (order.map (Signal.ident · 1)).Perm layout.interface.clocks)
    (stores : layout.interface.storingClocks.Sublist (order.map (Signal.ident · 1)))
    (name : String) :
    ((sim.clocked.filter fun block =>
      name ∈ Statement.assignedAll block.body).map ClockedBlock.clock).Sublist order := by
  by_cases storage : name = layout.storage.name
  · rw [storage]
    rw [← describes.clocks_of_storing_blocks state] at stores
    simpa [List.filterMap_map, Function.comp_def, Signal.ident, Expr.name?] using
      stores.filterMap fun signal => signal.expr.name?
  · -- A register is assigned in one place, so that there is one block at most.
    have once := describes.nodup_registers
    rw [← describes.assigned_clocked state, List.filter_flatMap] at once
    have single := length_filter_mem_le_one once name
    simp only [List.mem_filter, storage, ne_eq, not_false_eq_true, decide_true, and_true] at single
    cases assigning : sim.clocked.filter fun block => name ∈ Statement.assignedAll block.body with
    | nil => exact List.nil_sublist order
    | cons block others =>
      cases others with
      | nil =>
        have member : block ∈ sim.clocked.filter fun block =>
            name ∈ Statement.assignedAll block.body := assigning ▸ List.mem_singleton_self block
        exact List.singleton_sublist.mpr
          (describes.clock_mem_order state all (List.mem_filter.mp member).1)
      | cons other rest =>
        rw [assigning] at single
        simp at single

theorem updates_eq (describes : layout.Describes module descriptor) (state : sim.Simulates module)
    (selected : String → Bool) : sim.updates selected = .ok (sim.demands selected) := by
  obtain ⟨each, -⟩ := Simulator.fire_eq_ok_iff.mp (describes.fire state selected)
  exact ClockedBlock.updatesAll_flatMap_eq_ok_iff.mpr ⟨each, rfl⟩

private theorem tick_eq_posedges (describes : layout.Describes module descriptor)
    (state : sim.Simulates module) {order : List String}
    (all : (order.map (Signal.ident · 1)).Perm layout.interface.clocks)
    (stores : layout.interface.storingClocks.Sublist (order.map (Signal.ident · 1))) :
    ∃ last, sim.posedges order = (.ok (), last) ∧ last.cycle = sim.cycle ∧
      sim.tick = (.ok (), { last with cycle := last.cycle + 1 }) := by
  have distinct : order.Nodup := by
    have clocks := describes.nodup_clocks
    rw [← layout.clocks_eq] at clocks
    exact List.Nodup.of_map _ (all.nodup_iff.mpr clocks)
  have named : ∀ name ∈ order, ∃ circuit ∈ layout.circuits, circuit.clock.expr = .ident name := by
    intro name member
    have listed := all.subset (List.mem_map_of_mem member)
    rw [layout.clocks_eq] at listed
    obtain ⟨circuit, inLayout, same⟩ := List.mem_map.mp listed
    exact ⟨circuit, inLayout, congrArg Signal.expr same⟩
  have edges := describes.posedges_eq state distinct named state
    fun circuit _ _ _ _ lane _ stage _ => rfl
  rw [sim.foldl_demands_clocks distinct (describes.assigning_ordered state all stores)] at edges
  obtain ⟨registers, arrays, same, -⟩ := sim.foldl_applied_eq (sim.demands fun _ => true)
  refine ⟨_, edges, by rw [same], ?_⟩
  rw [Simulator.tick, describes.fire state]

private theorem agrees_of_own (describes : layout.Describes module descriptor)
    {first second : Simulator} (firstState : first.Simulates module)
    (secondState : second.Simulates module) {circuit : Circuit} (member : circuit ∈ layout.circuits)
    {name : String} (named : circuit.clock.expr = .ident name)
    (inputs : ∀ lane ∈ circuit.lanes, first.reading lane.source = second.reading lane.source)
    (registers : ∀ block ∈ first.clocked, block.clock = name →
      ∀ register ∈ Statement.assignedAll block.body,
        first.registers.get? register = second.registers.get? register) :
    circuit.Agrees first second := by
  intro lane inCircuit stage inside
  cases stage with
  | zero => exact inputs lane inCircuit
  | succ stage =>
    have captured := lane.mem_captures inside
    have inLane := Lane.register_of_mem_captures captured
    obtain ⟨free, bits, found, -⟩ := describes.register firstState member inCircuit inLane
    obtain ⟨otherFree, -⟩ := describes.register secondState member inCircuit inLane
    have present : ⟨name, Lane.captureBody (lane.registers.getD stage "",
        (lane.tap stage).expr)⟩ ∈ first.clocked := by
      rw [describes.clocked firstState]
      refine List.mem_flatMap.mpr ⟨circuit, member, ?_⟩
      rw [circuit.clockedBlocks_items named]
      exact List.mem_append_left _ (List.mem_flatMap.mpr
        ⟨lane, inCircuit, List.mem_map.mpr ⟨_, captured, rfl⟩⟩)
    have same := registers _ present rfl (lane.registers.getD stage "") (by
      simp [Lane.captureBody, Statement.assignedAll, Statement.assigned, Expr.assigned])
    exact (Simulator.reading_register free found _).trans
      (Simulator.reading_register otherFree (same ▸ found) _).symm

end Layout.Describes

/-- Simultaneous edges of every lowered memory can be taken one after another. -/
theorem ticks_serialise {scope : Scope} {name : String} {ports : List Port}
    {descriptor : Descriptor} {options : LoweringOptions} {module : Module}
    (lowered : lower scope name ports descriptor options = .ok module)
    (distinct : (ports.map Port.name).Nodup) :
    ∃ start interface storage, Started module ports descriptor start interface storage ∧
      Serialises start interface := by
  obtain ⟨layout, describes, samePorts⟩ := exists_describes_of_lower lowered distinct
  refine ⟨_, _, _, describes.started samePorts, ⟨?_, ?_⟩⟩
  · intro operations order all stores
    exact describes.tick_eq_posedges ((Simulator.simulates_elaborated module).run operations) all
      stores
  · intro first second clock inputs member same registers
    have firstState := (Simulator.simulates_elaborated module).run first
    have secondState := (Simulator.simulates_elaborated module).run second
    rw [layout.tuples_eq] at member
    obtain ⟨circuit, inLayout, tuple⟩ := List.mem_map.mp member
    obtain ⟨clockIs, sources⟩ := List.cons.inj tuple
    have named : circuit.clock.expr = .ident clock := congrArg Signal.expr clockIs
    have agrees := describes.agrees_of_own firstState secondState inLayout named
      (fun lane inCircuit => same lane.source (sources ▸ List.mem_map_of_mem inCircuit))
      (firstState.clocked ▸ registers)
    rw [describes.updates_eq firstState, describes.updates_eq secondState,
      describes.demands_congr firstState secondState inLayout named agrees]

theorem ticks_serialise_of_threePorts :
    ∃ module, lower .top "memory" threePorts.ports threePorts .standard = .ok module ∧
      (threePorts.ports.map Port.name).Nodup ∧
      ∃ start interface storage, Started module threePorts.ports threePorts start interface storage ∧
        Serialises start interface := by
  obtain ⟨module, lowered⟩ := exists_lower_threePorts
  have distinct : (threePorts.ports.map Port.name).Nodup := by decide
  exact ⟨module, lowered, distinct, ticks_serialise lowered distinct⟩

end Memory
end Multiport
