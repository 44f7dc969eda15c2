import Multiport.Proofs.Memory.Edges
import Multiport.Proofs.Memory.Scoping

/-! A lowered memory can always be simulated. In every state of a run each value that is assigned
can be computed and fits its target, every port, net and register has a value of its width, and
every edge succeeds. -/
namespace Multiport

namespace Simulator

/-- Every value that an item assigns can be computed and has the width of its target, also while a
combinational block has settled some of its names. -/
def Computes (sim : Simulator) (module : Module) (item : Item) : Prop :=
  ∀ values : Table Bits,
    (∀ name, name ∉ item.settledEntries.map Prod.fst → values.get? name = none) →
      ∀ assignment ∈ item.assignments, ∃ bits,
        assignment.2.eval (sim.environment.shadow values) = .ok bits ∧
          module.Gives assignment.1 bits.width

/-- Nothing fails in a state: what is assigned has the width of its target, what has a width has a
value, and edges of inputs succeed. -/
structure Faultless (sim : Simulator) (module : Module) : Prop where
  assignments : ∀ item ∈ module.items, sim.Computes module item
  names : ∀ name width, module.Gives (.ident name) width →
    ∃ bits, sim.get name = .ok bits ∧ bits.width = width
  tick : sim.tick.1 = .ok ()
  posedge : ∀ port ∈ module.inputs, (sim.posedge port.name).1 = .ok ()

end Simulator

namespace Memory
namespace Layout.Describes

variable {layout : Layout} {module : Module} {descriptor : Descriptor} {sim : Simulator}

private theorem evaluates_driver (describes : layout.Describes module descriptor)
    (state : sim.Simulates module) {value : Signal} (member : value ∈ layout.values) :
    ∃ bits, sim.Evaluates 3 value.expr bits ∧ bits.width = descriptor.dataWidth := by
  obtain ⟨array, stored, wide, -, uniform⟩ := describes.storage state
  rw [describes.realizes.width] at wide
  rcases List.mem_append.mp member with shown | held
  · obtain ⟨plan, inRead, rfl⟩ := List.mem_map.mp shown
    refine ⟨_, (describes.evaluates_value state inRead stored).mono (by decide), ?_⟩
    split
    · rw [array.width_read uniform, wide]
    · rw [Bits.width_x, describes.realizes.width]
  · obtain ⟨plan, inReadWrite, rfl⟩ := List.mem_map.mp held
    refine ⟨_, describes.evaluates_held state inReadWrite stored, ?_⟩
    split
    · rw [array.width_read uniform, wide]
    · rw [Bits.width_x, describes.realizes.width]

private theorem get_output (describes : layout.Describes module descriptor)
    (state : sim.Simulates module) {port : Port} (given : port ∈ module.outputs) :
    ∃ bits, sim.get port.name = .ok bits ∧ bits.width = port.width := by
  rw [← describes.outputs] at given
  have paired : (layout.outputs.zip layout.values).map Prod.fst = layout.outputs :=
    List.map_fst_zip (Nat.le_of_eq describes.length_values.symm)
  rw [← paired] at given
  obtain ⟨pair, member, rfl⟩ := List.mem_map.mp given
  obtain ⟨inOutputs, inValues⟩ := List.of_mem_zip member
  obtain ⟨bits, evaluates, wide⟩ := describes.evaluates_driver state inValues
  have fits : bits.width = pair.1.width :=
    wide.trans (describes.realizes.outputWidth pair.1 inOutputs).symm
  exact ⟨bits, (describes.evaluates_output state member evaluates fits).get (by decide), fits⟩

private theorem get_of_gives (describes : layout.Describes module descriptor)
    (state : sim.Simulates module) {name : String} {width : Nat}
    (given : module.Gives (.ident name) width) :
    ∃ bits, sim.get name = .ok bits ∧ bits.width = width := by
  rcases given with ⟨port, given, rfl, rfl⟩ | ⟨declaration, declared, rfl, dims⟩
  · by_cases input : port.isInput = true
    · obtain ⟨bits, found, wide⟩ :=
        state.input describes.distinct (List.mem_filter.mpr ⟨given, input⟩)
      have held : sim.held? port.name = some bits := by simp [Simulator.held?, found]
      exact ⟨bits, (Simulator.Evaluates.held held).get (by decide), wide⟩
    · exact describes.get_output state (List.mem_filter.mpr ⟨given, by simpa using input⟩)
  · rcases describes.cases_of_mem_declarations declared with
      rfl | ⟨circuit, inLayout, lane, inCircuit, register, inLane, rfl⟩ |
        ⟨plan, inReadWrite, rfl | rfl | rfl⟩
    · simp [Declaration.array] at dims
    · obtain ⟨free, bits, found, wide⟩ := describes.register state inLayout inCircuit inLane
      have held : sim.held? register = some bits := by simp [Simulator.held?, free, found]
      cases dims
      exact ⟨bits, (Simulator.Evaluates.held held).get (by decide), wide⟩
    · obtain ⟨bits, evaluates, single, -⟩ := describes.evaluates_writes state inReadWrite
      cases dims
      exact ⟨bits, evaluates.get (by decide), single⟩
    · obtain ⟨bits, evaluates, single, -⟩ := describes.evaluates_reads state inReadWrite
      cases dims
      exact ⟨bits, evaluates.get (by decide), single⟩
    · have shown : .ident plan.held layout.storage.width ∈ layout.values :=
        List.mem_append_right _ (List.mem_map.mpr ⟨plan, inReadWrite, rfl⟩)
      obtain ⟨bits, evaluates, wide⟩ := describes.evaluates_driver state shown
      cases dims
      exact ⟨bits, evaluates.get (by decide), wide.trans describes.realizes.width.symm⟩

private theorem gives_declared (describes : layout.Describes module descriptor)
    {declaration : Declaration} (declared : declaration ∈ layout.items.flatMap Item.declared)
    {width : Nat} (dims : declaration.shape.dims = [width]) :
    module.Gives (.ident declaration.name) width := by
  rw [← describes.declarations] at declared
  exact .inr ⟨declaration, declared, rfl, dims⟩

private theorem gives_slot (describes : layout.Describes module descriptor) (address : Signal) :
    module.Gives (layout.storage.slot address) layout.storage.width := by
  refine ⟨layout.storage.depth, ?_⟩
  rw [describes.declarations, layout.declarations_items]
  exact List.mem_cons_self

private theorem computed {values : Table Bits} {target value : Expr} {bits : Bits} {width : Nat}
    (evaluates : sim.Evaluates 3 value bits) (wide : bits.width = width)
    (gives : module.Gives target width) (apart : ∀ name ∈ value.reads, values.get? name = none) :
    ∃ bits, value.eval (sim.environment.shadow values) = .ok bits ∧
      module.Gives target bits.width :=
  ⟨bits, evaluates.eval_shadow (by decide) apart, wide ▸ gives⟩

private theorem computes_of_single {item : Item} {target value : Expr} {bits : Bits} {width : Nat}
    (settles : item.settledEntries = []) (assigns : item.assignments = [(target, value)])
    (evaluates : sim.Evaluates 3 value bits) (wide : bits.width = width)
    (gives : module.Gives target width) : sim.Computes module item := by
  intro values free assignment member
  rw [assigns, List.mem_singleton] at member
  subst member
  exact computed evaluates wide gives fun name _ => free name (by simp [settles])

private theorem computes_of_none {item : Item} (assigns : item.assignments = []) :
    sim.Computes module item := by
  intro values _ assignment member
  simp [assigns] at member

private theorem computes_readWrite (describes : layout.Describes module descriptor)
    (state : sim.Simulates module) {plan : ReadWritePlan} (member : plan ∈ layout.readWrite) :
    ∀ item ∈ plan.logic layout.storage, sim.Computes module item := by
  obtain ⟨writes, reads, held⟩ := mem_declarations_of_readWrite member
  obtain ⟨writing, writesIs, writesSingle, -⟩ := describes.evaluates_writeCondition state member
  obtain ⟨reading, readsIs, readsSingle, -⟩ := describes.evaluates_readCondition state member
  obtain ⟨array, stored, wide, -, uniform⟩ := describes.storage state
  obtain ⟨-, address, -, -, data⟩ := describes.holds_readWrite state member
  obtain ⟨-, -, -, -, size⟩ := describes.widths_readWrite member
  have dataWide : (sim.reading plan.data.output).width = layout.storage.width :=
    data.width.trans (size.trans describes.realizes.width.symm)
  simp only [ReadWritePlan.logic, List.forall_mem_cons]
  refine ⟨computes_of_none rfl, ?_, computes_of_none rfl, ?_, computes_of_none rfl, ?_, ?_, by simp⟩
  · exact computes_of_single rfl rfl (writesIs.mono (by decide)) writesSingle
      (describes.gives_declared writes rfl)
  · exact computes_of_single rfl rfl (readsIs.mono (by decide)) readsSingle
      (describes.gives_declared reads rfl)
  · -- Before the word is looked up, the block has settled its own register, which is not asked for.
    intro values free assignment assigned
    have target := describes.gives_declared held rfl
    have assignments : assignment = (.ident plan.held, .x layout.storage.width) ∨
        assignment = (.ident plan.held, layout.storage.slot plan.address.output) := by
      simpa [Item.assignments, ReadWritePlan.settle, Statement.assignmentsAll,
        Statement.assignments] using assigned
    rcases assignments with rfl | rfl
    · exact computed (.number _) (Bits.width_x _) target (by simp [Expr.x, Expr.reads])
    · have word := Simulator.Evaluates.word stored address.evaluates
      apply computed (word.mono (by decide)) ((array.width_read uniform _).trans wide) target
      intro name read
      apply free name
      intro settled
      have same : name = plan.held := by
        simpa [Item.settledEntries, ReadWritePlan.settle, Statement.blockingNamesAll,
          Statement.blockingNames, Expr.name?] using settled
      exact describes.held_not_mem_slot member (same ▸ read)
  · exact computes_of_single rfl rfl (data.evaluates.mono (by decide)) dataWide
      (describes.gives_slot _)

private theorem computes_write (describes : layout.Describes module descriptor)
    (state : sim.Simulates module) {plan : WritePlan} (member : plan ∈ layout.write) :
    sim.Computes module (.always (.posedge plan.port.clock.expr) (plan.store layout.storage)) := by
  obtain ⟨-, -, -, data⟩ := describes.holds_write state member
  obtain ⟨-, -, -, size⟩ := describes.widths_write member
  have wide : (sim.reading plan.data.output).width = layout.storage.width :=
    data.width.trans (size.trans describes.realizes.width.symm)
  exact computes_of_single rfl rfl (data.evaluates.mono (by decide)) wide (describes.gives_slot _)

private theorem computes_outputs (describes : layout.Describes module descriptor)
    (state : sim.Simulates module) : sim.Computes module (.assigns layout.driven) := by
  intro values free assignment member
  obtain ⟨assign, driven, rfl⟩ := List.mem_map.mp member
  obtain ⟨pair, inPairs, rfl⟩ := List.mem_map.mp driven
  obtain ⟨inOutputs, inValues⟩ := List.of_mem_zip inPairs
  obtain ⟨bits, evaluates, wide⟩ := describes.evaluates_driver state inValues
  refine computed evaluates (wide.trans (describes.realizes.outputWidth _ inOutputs).symm)
    (.inl ⟨pair.1, ?_, rfl, rfl⟩) fun name _ => free name (by simp [Item.settledEntries])
  rw [describes.outputs] at inOutputs
  exact (List.mem_filter.mp inOutputs).1

/-- Nothing fails in any state of the simulator of a lowered memory. -/
theorem faultless (describes : layout.Describes module descriptor) (state : sim.Simulates module) :
    sim.Faultless module where
  assignments := by
    rw [describes.items]
    refine layout.forall_mem_items (computes_of_none rfl) ?_
      (fun _ member => describes.computes_readWrite state member)
      (fun _ member => describes.computes_write state member) (describes.computes_outputs state)
    intro circuit member lane inCircuit capture captured
    have holds := describes.holds_capture state member inCircuit captured
    have inLane := Lane.register_of_mem_captures captured
    refine ⟨computes_of_none rfl, ?_⟩
    exact computes_of_single rfl rfl (holds.evaluates.mono (by decide)) holds.width
      (describes.gives_declared (mem_declarations_of_lane member inCircuit inLane) rfl)
  names _ _ given := describes.get_of_gives state given
  tick := by
    have done : (sim.perform .tick).1 = .ok () := describes.perform_rising state (.inl rfl)
    exact done
  posedge port given := by
    have done : (sim.perform (.posedge port.name)).1 = .ok () :=
      describes.perform_rising state (.inr ⟨port, given, rfl⟩)
    exact done

end Layout.Describes

/-- Every lowered memory is closed and singly driven, and nothing fails in any state of any run. -/
theorem lowered_faultless {scope : Scope} {name : String} {ports : List Port}
    {descriptor : Descriptor} {options : LoweringOptions} {module : Module}
    (lowered : lower scope name ports descriptor options = .ok module)
    (distinct : (ports.map Port.name).Nodup) :
    ∃ start interface storage, Started module ports descriptor start interface storage ∧
      module.Closed ∧ module.SinglyDriven storage ∧
      ∀ operations, (start.run operations).Faultless module := by
  obtain ⟨layout, describes, samePorts⟩ := exists_describes_of_lower lowered distinct
  refine ⟨_, _, _, describes.started samePorts, describes.closed, describes.singlyDriven, ?_⟩
  intro operations
  exact describes.faultless ((Simulator.simulates_elaborated module).run operations)

theorem lowered_faultless_of_threePorts :
    ∃ module, lower .top "memory" threePorts.ports threePorts .standard = .ok module ∧
      (threePorts.ports.map Port.name).Nodup ∧
      ∃ start interface storage, Started module threePorts.ports threePorts start interface storage ∧
        module.Closed ∧ module.SinglyDriven storage ∧
        ∀ operations, (start.run operations).Faultless module := by
  obtain ⟨module, lowered⟩ := exists_lower_threePorts
  have distinct : (threePorts.ports.map Port.name).Nodup := by decide
  exact ⟨module, lowered, distinct, lowered_faultless lowered distinct⟩

end Memory
end Multiport
