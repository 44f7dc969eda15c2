import Multiport.Proofs.Memory.Driving

namespace Multiport.Memory

open Item (Scoped declaredNames)

private theorem Lane.scoped_captures {outputs known : List String} {width : Nat} {clock : Expr}
    (registers : List String) {source : Expr} (sourceKnown : ∀ name ∈ source.reads, name ∈ known)
    (clockKnown : ∀ name ∈ clock.reads, name ∈ known) :
    Scoped outputs known ((capturesFrom source registers).flatMap fun capture =>
      [.declarations [.reg width capture.1], .always (.posedge clock) (captureBody capture)]) := by
  induction registers generalizing source known with
  | nil => trivial
  | cons register rest ih =>
    have later : ∀ name, name ∈ known → name ∈ known ++ [register] ++ [] := by
      intro name member
      simp [member]
    refine ⟨by simp [Item.reads], by simp [Item.assigned, Item.continuous, Item.procedural], ?_, ?_,
      ih (fun name member => ?_) fun name member => later name (clockKnown name member)⟩
    · intro name member
      simp only [Item.reads, captureBody, Statement.readsAll, Statement.reads, Expr.indexReads,
        List.nil_append, List.append_nil, List.mem_append] at member
      rcases member with inClock | inSource
      · exact List.mem_append_left _ (clockKnown name inClock)
      · exact List.mem_append_left _ (sourceKnown name inSource)
    · intro name member
      simp only [Item.assigned, Item.continuous, Item.procedural, captureBody,
        Statement.assignedAll, Statement.assigned, Expr.assigned, List.nil_append,
        List.append_nil, List.mem_singleton] at member
      subst member
      exact .inl (by simp [declaredNames, Item.declared, Declaration.reg])
    · simp only [Expr.reads, List.mem_singleton] at member
      subst member
      simp [declaredNames, Item.declared, Declaration.reg]

theorem Lane.declaredNames_items (lane : Lane) (clock : Expr) :
    declaredNames (lane.items clock) = lane.registers := by
  simp [declaredNames, lane.declared_items, declarations, Declaration.reg, Function.comp_def]

/-- What stands behind a lane is what goes in or one of its registers. -/
theorem Lane.reads_output {lane : Lane} {name : String} (member : name ∈ lane.output.expr.reads) :
    name ∈ lane.source.expr.reads ∨ name ∈ lane.registers := by
  cases last : lane.registers.getLast? with
  | none =>
    simp only [output, last, Option.map_none, Option.getD_none] at member
    exact .inl member
  | some register =>
    simp only [output, last, Option.map_some, Option.getD_some, Expr.reads,
      List.mem_singleton] at member
    rw [member]
    exact .inr (List.mem_of_getLast? last)

section Logic

variable {outputs known : List String} {storage : Storage}

private theorem WritePlan.scoped_logic {plan : WritePlan}
    (clock : ∀ name ∈ plan.port.clock.expr.reads, name ∈ known) (stored : storage.name ∈ known)
    (lanes : ∀ lane ∈ plan.lanes, ∀ name ∈ lane.output.expr.reads, name ∈ known) :
    Scoped outputs known (plan.circuit storage).logic := by
  simp only [WritePlan.lanes, List.forall_mem_cons] at lanes
  obtain ⟨enable, address, mask, data, -⟩ := lanes
  refine ⟨?_, ?_, trivial⟩
  · intro name member
    simp only [Item.reads, WritePlan.store, WritePlan.condition, Statement.readsAll,
      Statement.reads, Expr.reads_combine, Storage.slot, Expr.indexReads, List.append_nil,
      List.mem_append] at member
    grind
  · intro name member
    simp only [Item.assigned, Item.continuous, Item.procedural, WritePlan.store, Storage.slot,
      Statement.assignedAll, Statement.assigned, Expr.assigned, List.nil_append, List.append_nil,
      List.mem_singleton] at member
    exact .inl (member ▸ stored)

private theorem ReadWritePlan.scoped_logic {plan : ReadWritePlan}
    (clock : ∀ name ∈ plan.port.clock.expr.reads, name ∈ known) (stored : storage.name ∈ known)
    (lanes : ∀ lane ∈ plan.lanes, ∀ name ∈ lane.output.expr.reads, name ∈ known) :
    Scoped outputs known (plan.circuit storage).logic := by
  simp only [ReadWritePlan.lanes, List.forall_mem_cons] at lanes
  obtain ⟨enable, address, mode, mask, data, -⟩ := lanes
  simp only [ReadWritePlan.circuit, ReadWritePlan.logic, Scoped, Item.reads, Item.assigned,
    Item.continuous, Item.procedural, declaredNames, Item.declared, ReadWritePlan.settle,
    ReadWritePlan.store, ReadWritePlan.writeCondition, ReadWritePlan.readCondition,
    Statement.readsAll, Statement.reads, Statement.assignedAll, Statement.assigned,
    Expr.reads_combine, Expr.reads, Expr.indexReads, Expr.assigned, Storage.slot, Expr.x,
    Expr.constant, Declaration.net, Declaration.reg, List.flatMap_cons, List.flatMap_nil,
    List.map_cons, List.map_nil, List.nil_append, List.append_nil, List.append_assoc,
    List.mem_append, List.mem_cons, List.not_mem_nil, or_false]
  and_intros <;> grind

private theorem Circuit.scoped_items {layout : Layout} {circuit : Circuit}
    (member : circuit ∈ layout.circuits) (stored : layout.storage.name ∈ known)
    (signals : ∀ signal ∈ layout.interface.signals, ∀ name ∈ signal.expr.reads, name ∈ known) :
    Scoped outputs known circuit.items := by
  obtain ⟨clockSignal, sources⟩ := Layout.signals_of_circuit member
  have clockKnown := signals circuit.clock clockSignal
  have laneScoped : ∀ lane ∈ circuit.lanes, Scoped outputs known (lane.items circuit.clock.expr) :=
    fun lane inCircuit =>
      Lane.scoped_captures lane.registers (signals lane.source (sources lane inCircuit)) clockKnown
  rw [Circuit.items, Item.scoped_append]
  refine ⟨Item.scoped_flatMap laneScoped, ?_⟩
  have before : ∀ name, name ∈ known → name ∈ known ++
      declaredNames (circuit.lanes.flatMap fun lane => lane.items circuit.clock.expr) :=
    fun name inKnown => List.mem_append_left _ inKnown
  have lanesKnown : ∀ lane ∈ circuit.lanes, ∀ name ∈ lane.output.expr.reads, name ∈ known ++
      declaredNames (circuit.lanes.flatMap fun lane => lane.items circuit.clock.expr) := by
    intro lane inCircuit name inOutput
    rcases Lane.reads_output inOutput with inSource | inLane
    · exact before name (signals lane.source (sources lane inCircuit) name inSource)
    · apply List.mem_append_right _
      rw [← lane.declaredNames_items circuit.clock.expr] at inLane
      obtain ⟨declaration, declared, rfl⟩ := List.mem_map.mp inLane
      obtain ⟨item, inItems, inItem⟩ := List.mem_flatMap.mp declared
      exact List.mem_map.mpr ⟨declaration, List.mem_flatMap.mpr
        ⟨item, List.mem_flatMap.mpr ⟨lane, inCircuit, inItems⟩, inItem⟩, rfl⟩
  rcases Layout.cases_of_mem_circuits member with
    ⟨plan, -, rfl⟩ | ⟨plan, -, rfl⟩ | ⟨plan, -, rfl⟩
  · exact trivial
  · exact ReadWritePlan.scoped_logic (fun name inClock => before name (clockKnown name inClock))
      (before _ stored) lanesKnown
  · exact WritePlan.scoped_logic (fun name inClock => before name (clockKnown name inClock))
      (before _ stored) lanesKnown

end Logic

namespace Layout.Describes

variable {layout : Layout} {module : Module} {descriptor : Descriptor}

private theorem inputs_of_signals (describes : layout.Describes module descriptor)
    (signal : Signal) (member : signal ∈ layout.interface.signals) :
    ∀ name ∈ signal.expr.reads, name ∈ module.inputs.map Port.name := by
  obtain ⟨port, given, rfl⟩ := describes.mem_inputs_of_signals member
  intro name read
  rw [Signal.ident, Expr.reads, List.mem_singleton] at read
  exact List.mem_map.mpr ⟨port, given, read.symm⟩

private theorem declaredNames_built (layout : Layout) :
    (declaredNames layout.built).Perm
      (layout.storage.name :: (layout.registers ++ layout.logicNames)) := by
  have silent : declaredNames layout.items = declaredNames layout.built := by
    rw [Layout.items, Item.declaredNames_append]
    split <;> simp [declaredNames, Item.declared]
  rw [← silent]
  exact layout.declared_perm

private theorem known_of_values (describes : layout.Describes module descriptor) {value : Signal}
    (member : value ∈ layout.values) : ∀ name ∈ value.expr.reads,
      name ∈ module.inputs.map Port.name ++ declaredNames layout.built := by
  have declared : ∀ name ∈ layout.storage.name :: (layout.registers ++ layout.logicNames),
      name ∈ module.inputs.map Port.name ++ declaredNames layout.built := fun name inNames =>
    List.mem_append_right _ ((declaredNames_built layout).mem_iff.mpr inNames)
  intro name read
  rcases List.mem_append.mp member with shown | held
  · obtain ⟨plan, inRead, rfl⟩ := List.mem_map.mp shown
    have lanes : ∀ lane ∈ plan.lanes, name ∈ lane.output.expr.reads →
        name ∈ module.inputs.map Port.name ++ declaredNames layout.built := by
      intro lane inPlan inOutput
      rcases Lane.reads_output inOutput with inSource | inLane
      · exact List.mem_append_left _ (describes.inputs_of_signals lane.source
          ((signals_of_circuit (mem_circuits_of_read inRead)).2 lane inPlan) name inSource)
      · exact declared name (List.mem_cons_of_mem _ (List.mem_append_left _
          (mem_registers (mem_circuits_of_read inRead) inPlan inLane)))
    simp only [ReadPlan.value, Storage.slot, Expr.x, Expr.reads, List.append_nil, List.mem_append,
      List.mem_cons] at read
    rcases read with inEnable | rfl | inAddress
    · exact lanes plan.enable (by simp [ReadPlan.lanes]) inEnable
    · exact declared _ List.mem_cons_self
    · exact lanes plan.address (by simp [ReadPlan.lanes]) inAddress
  · obtain ⟨plan, inReadWrite, rfl⟩ := List.mem_map.mp held
    rw [Signal.ident, Expr.reads, List.mem_singleton] at read
    subst read
    exact declared _ (List.mem_cons_of_mem _ (List.mem_append_right _
      (List.mem_flatMap.mpr ⟨plan, inReadWrite, by simp⟩)))

private theorem inScope (describes : layout.Describes module descriptor) :
    Scoped (module.outputs.map Port.name) (module.inputs.map Port.name) module.items := by
  have storageScoped : ∀ rest,
      Scoped (module.outputs.map Port.name)
        (module.inputs.map Port.name ++ [layout.storage.name]) rest →
      Scoped (module.outputs.map Port.name) (module.inputs.map Port.name)
        (.declarations [.array layout.storage.width layout.storage.depth layout.storage.name] ::
          rest) := by
    intro rest later
    refine ⟨by simp [Item.reads], by simp [Item.assigned, Item.continuous, Item.procedural], ?_⟩
    simpa [declaredNames, Item.declared, Declaration.array] using later
  rw [describes.items, Layout.items, Item.scoped_append]
  refine ⟨storageScoped _ (Item.scoped_flatMap fun circuit member => ?_), ?_⟩
  · apply Circuit.scoped_items member (by simp)
    intro signal inSignals name read
    exact List.mem_append_left _ (describes.inputs_of_signals signal inSignals name read)
  · split
    · exact trivial
    · refine ⟨fun name read => ?_, fun name assigned => .inr ?_, trivial⟩
      · obtain ⟨assign, inDriven, inAssign⟩ := List.mem_flatMap.mp read
        obtain ⟨pair, inPairs, rfl⟩ := List.mem_map.mp inDriven
        exact describes.known_of_values (List.of_mem_zip inPairs).2 name inAssign
      · simp only [Item.assigned, Item.continuous, Item.procedural, List.append_nil] at assigned
        obtain ⟨assign, inDriven, inAssign⟩ := List.mem_flatMap.mp assigned
        obtain ⟨pair, inPairs, rfl⟩ := List.mem_map.mp inDriven
        rw [Expr.assigned, List.mem_singleton] at inAssign
        rw [inAssign, ← describes.outputs]
        exact List.mem_map.mpr ⟨pair.1, (List.of_mem_zip inPairs).1, rfl⟩

theorem closed (describes : layout.Describes module descriptor) : module.Closed where
  distinct := describes.distinct
  reads before item after place := (describes.inScope.split place).1
  assigned before item after place name assigned := by
    rcases (describes.inScope.split place).2 name assigned with input | declared | output
    · obtain ⟨port, given, rfl⟩ := List.mem_map.mp input
      have undriven := describes.singlyDriven.inputs port given
      have member : item ∈ module.items := by simp [place]
      exact absurd assigned (Module.not_mem_assigned member undriven.1 undriven.2)
    · exact .inr declared
    · exact .inl output

end Layout.Describes

end Multiport.Memory
