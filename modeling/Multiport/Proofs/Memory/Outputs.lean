import Multiport.Proofs.Memory.State

namespace Multiport.Memory

private theorem ReadWritePlan.settleAll_settle {environment : Environment} {storage : Storage}
    {plan : ReadWritePlan} {writes reads word : Bits}
    (writesIs : environment.value plan.writes = .ok writes)
    (readsIs : environment.value plan.reads = .ok reads)
    (wordIs : (storage.slot plan.address.output).eval environment = .ok word)
    (writesApart : plan.writes ≠ plan.held) (readsApart : plan.reads ≠ plan.held)
    (wordApart : plan.held ∉ (storage.slot plan.address.output).reads) :
    ∃ values, Statement.settleAll environment (plan.settle storage) .empty = .ok values ∧
      values.get? plan.held =
        some (if writes.isTrue = false ∧ reads.isTrue = true then word else .x storage.width) := by
  let unknown : Table Bits := Table.empty.insert plan.held (.x storage.width)
  have hidden : ∀ name, name ≠ plan.held → unknown.get? name = none := by
    intro name other
    simp [unknown, Table.get?_insert, other]
  have writesInside : (environment.shadow unknown).value plan.writes = .ok writes := by
    simp [Environment.shadow, hidden plan.writes writesApart, writesIs]
  have readsInside : (environment.shadow unknown).value plan.reads = .ok reads := by
    simp [Environment.shadow, hidden plan.reads readsApart, readsIs]
  have wordInside : (storage.slot plan.address.output).eval (environment.shadow unknown) =
      .ok word := by
    rw [Expr.eval_shadow_of_not_mem fun name member => hidden name fun same =>
      wordApart (same ▸ member)]
    exact wordIs
  have start : Statement.settleAll environment (plan.settle storage) .empty =
      Statement.settleAll environment
        [.cond (.ident plan.writes) []
          [.cond (.ident plan.reads)
            [.blocking (.ident plan.held) (storage.slot plan.address.output)] []]] unknown := rfl
  rw [start]
  simp only [Statement.settleAll, Statement.settle, Expr.eval_ident, writesInside, readsInside,
    wordInside, ok_bind, Expr.name?, pure_eq_ok]
  by_cases written : writes.isTrue = true
  · exact ⟨unknown, by simp [written], by simp [written, unknown, Table.get?_insert]⟩
  · by_cases shown : reads.isTrue = true
    · exact ⟨unknown.insert plan.held word, by simp [written, shown],
        by simp [written, shown, Table.get?_insert]⟩
    · exact ⟨unknown, by simp [written, shown], by simp [shown, unknown, Table.get?_insert]⟩

namespace Layout.Describes

variable {layout : Layout} {module : Module} {descriptor : Descriptor} {sim : Simulator}

private theorem nets_ne_held (describes : layout.Describes module descriptor)
    {plan : ReadWritePlan} (member : plan ∈ layout.readWrite) :
    plan.writes ≠ plan.held ∧ plan.reads ≠ plan.held := by
  have distinct := (List.nodup_flatMap.mp describes.nodup_logicNames).1 plan member
  simp only [List.nodup_cons, List.mem_cons, List.not_mem_nil, or_false, not_or] at distinct
  exact ⟨distinct.1.2, distinct.2.1⟩

private theorem held_undriven (describes : layout.Describes module descriptor)
    {plan : ReadWritePlan} (member : plan ∈ layout.readWrite) :
    ∀ entry ∈ module.driverEntries, entry.1 ≠ plan.held := by
  rw [describes.driverEntries]
  intro entry inEntries
  rcases List.mem_append.mp inEntries with net | output
  · obtain ⟨other, inReadWrite, same⟩ := List.mem_flatMap.mp net
    refine (List.nodup_append.mp describes.nodup_nets_held).2.2 entry.1
      (List.mem_flatMap.mpr ⟨other, inReadWrite, ?_⟩) plan.held
      (List.mem_map.mpr ⟨plan, member, rfl⟩)
    simp only [List.mem_cons, List.not_mem_nil, or_false] at same ⊢
    rcases same with rfl | rfl
    · exact .inl rfl
    · exact .inr rfl
  · obtain ⟨pair, inPairs, rfl⟩ := List.mem_map.mp output
    have given := (List.mem_filter.mp (List.of_mem_zip inPairs).1).1
    rw [← describes.ports] at given
    have declared := (mem_declarations_of_readWrite member).2.2
    rw [← describes.declarations] at declared
    exact Module.port_name_ne_declaration_name describes.distinct given declared

private theorem settled_body (describes : layout.Describes module descriptor)
    (state : sim.Simulates module) {plan : ReadWritePlan} (member : plan ∈ layout.readWrite) :
    sim.settled.get? plan.held = some (plan.settle layout.storage) := by
  have entries : module.settledEntries = layout.readWrite.flatMap fun plan =>
      [(plan.held, plan.settle layout.storage), (plan.held, plan.settle layout.storage)] := by
    rw [Module.settledEntries, describes.items, layout.settledEntries_items]
  refine state.settled (entries ▸ List.mem_flatMap.mpr ⟨plan, member, List.mem_cons_self⟩) ?_
  rw [entries]
  intro entry inEntries named
  obtain ⟨other, inReadWrite, same⟩ := List.mem_flatMap.mp inEntries
  simp only [List.mem_cons, List.not_mem_nil, or_false, or_self] at same
  rw [same] at named ⊢
  rw [List.inj_on_of_nodup_map (List.nodup_append.mp describes.nodup_nets_held).2.1 inReadWrite
    member named]

theorem held?_held (describes : layout.Describes module descriptor) (state : sim.Simulates module)
    {plan : ReadWritePlan} (member : plan ∈ layout.readWrite) : sim.held? plan.held = none := by
  have declared := (mem_declarations_of_readWrite member).2.2
  rw [← describes.declarations] at declared
  refine describes.held?_eq_none state declared (.inl ?_)
  rw [describes.settledNames]
  exact List.mem_flatMap.mpr ⟨plan, member, List.mem_cons_self⟩

/-- The word that a read-write port shows is found without its register. -/
theorem held_not_mem_slot (describes : layout.Describes module descriptor) {plan : ReadWritePlan}
    (member : plan ∈ layout.readWrite) :
    plan.held ∉ (layout.storage.slot plan.address.output).reads := by
  have inPlan : plan.address ∈ (plan.circuit layout.storage).lanes := by
    simp [ReadWritePlan.circuit, ReadWritePlan.lanes]
  obtain ⟨name, named, outside⟩ :=
    describes.exists_output_name (mem_circuits_of_readWrite member) inPlan
  have inLogic : plan.held ∈ layout.logicNames := List.mem_flatMap.mpr ⟨plan, member, by simp⟩
  have noAddress : plan.held ≠ name := fun same => outside (same ▸ inLogic)
  simp [Storage.slot, Expr.reads, named, describes.held_ne_storage member, noAddress]

/-- The register of a read-write port shows the word at the address if enable is `1` and mode is
`0`, and is unknown in all other cases. -/
theorem evaluates_held (describes : layout.Describes module descriptor)
    (state : sim.Simulates module) {plan : ReadWritePlan} (member : plan ∈ layout.readWrite)
    {array : WordArray} (stored : sim.arrays.get? layout.storage.name = some array) :
    sim.Evaluates 3 (.ident plan.held)
      (if sim.reading plan.enable.output = .ofNat 1 1 ∧
          sim.reading plan.mode.output = .ofNat 1 0 then
        array.read (sim.reading plan.address.output)
      else .x layout.storage.width) := by
  obtain ⟨-, address, -⟩ := describes.holds_readWrite state member
  obtain ⟨present, found, wide, -, uniform⟩ := describes.storage state
  obtain rfl := Option.some.inj (stored.symm.trans found)
  have word : sim.Evaluates 2 (layout.storage.slot plan.address.output)
      (array.read (sim.reading plan.address.output)) :=
    (Simulator.Evaluates.word stored address.evaluates).mono (by decide)
  have wordWidth : (array.read (sim.reading plan.address.output)).width = layout.storage.width :=
    (array.width_read uniform _).trans wide
  obtain ⟨writes, writesIs, writesSingle, writesOne⟩ := describes.evaluates_writes state member
  obtain ⟨reads, readsIs, readsSingle, readsOne⟩ := describes.evaluates_reads state member
  obtain ⟨writesApart, readsApart⟩ := describes.nets_ne_held member
  have declared := (mem_declarations_of_readWrite member).2.2
  rw [← describes.declarations] at declared
  have settles := Simulator.Evaluates.settled (describes.held?_held state member)
    (state.drivers_eq_none (describes.held_undriven member)) (describes.settled_body state member)
    (state.width_of_declaration describes.distinct declared rfl) fun depth =>
      ReadWritePlan.settleAll_settle (writesIs depth) (readsIs depth) (word depth) writesApart
        readsApart (describes.held_not_mem_slot member)
  -- A port that reads does not write, since its mode cannot be both.
  have decided : (writes.isTrue = false ∧ reads.isTrue = true) ↔
      sim.reading plan.enable.output = .ofNat 1 1 ∧ sim.reading plan.mode.output = .ofNat 1 0 := by
    rw [Bits.isTrue_iff_of_width_eq_one readsSingle, readsOne, ← Bool.not_eq_true,
      Bits.isTrue_iff_of_width_eq_one writesSingle, writesOne]
    constructor
    · exact fun both => both.2
    · rintro ⟨enabled, reading⟩
      refine ⟨fun writing => Bits.ofNat_one_ne_zero ?_, enabled, reading⟩
      exact writing.2.2.symm.trans reading
  simp only [decided] at settles
  rwa [Bits.resize_of_width_eq (by split <;> simp [wordWidth])] at settles

theorem evaluates_output (describes : layout.Describes module descriptor)
    (state : sim.Simulates module) {pair : Port × Signal}
    (member : pair ∈ layout.outputs.zip layout.values) {bits : Bits} {rank : Nat}
    (evaluates : sim.Evaluates rank pair.2.expr bits) (wide : bits.width = pair.1.width) :
    sim.Evaluates (rank + 1) (.ident pair.1.name) bits := by
  obtain ⟨output, -⟩ := List.of_mem_zip member
  rw [describes.outputs] at output
  obtain ⟨given, direction⟩ := List.mem_filter.mp output
  have free : sim.held? pair.1.name = none := by
    have noInput : sim.inputs.get? pair.1.name = none := by
      apply state.inputs_eq_none
      intro port input same
      obtain ⟨otherGiven, otherDirection⟩ := List.mem_filter.mp input
      rw [Module.port_eq_of_name_eq describes.distinct otherGiven given same] at otherDirection
      simp [otherDirection] at direction
    have noRegister : sim.registers.get? pair.1.name = none := by
      refine state.registers_eq_none (.inr fun width declared => ?_)
      exact Module.port_name_ne_declaration_name describes.distinct given declared rfl
    simp [Simulator.held?, noInput, noRegister]
  have driven : (pair.1.name, pair.2.expr) ∈ module.driverEntries := by
    rw [describes.driverEntries]
    exact List.mem_append_right _ (List.mem_map.mpr ⟨pair, member, rfl⟩)
  have followed := Simulator.Evaluates.driven free (describes.driver state driven)
    (state.width_of_port describes.distinct given) evaluates
  rwa [Bits.resize_of_width_eq wide] at followed

end Layout.Describes
end Multiport.Memory
