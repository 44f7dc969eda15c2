import Multiport.Proofs.Memory.State

namespace Multiport

/-- The names that continuous assignments assign are those that are driven, if all are plain. -/
theorem Module.continuous_items {module : Module} (supported : module.Supported) :
    module.items.flatMap Item.continuous = module.driverEntries.map Prod.fst := by
  rw [driverEntries, List.map_flatMap]
  apply List.flatMap_congr
  intro item member
  have plain := supported.2 item member
  cases item with
  | declarations | always | group => rfl
  | assigns driven =>
    simp only [Item.continuous, Item.driverEntries, List.map_flatMap]
    apply List.flatMap_congr
    intro assign inDriven
    obtain ⟨name, target⟩ := plain assign inDriven
    simp [target, Expr.assigned, Expr.name?]

namespace Memory.Layout.Describes

variable {layout : Layout} {module : Module} {descriptor : Descriptor}

private theorem nodup_driven (describes : layout.Describes module descriptor) :
    (module.inputs.map Port.name ++ (layout.storage.name ::
      ((layout.registers ++ layout.heldNames) ++
        (layout.netNames ++ module.outputs.map Port.name)))).Nodup := by
  have ports : (module.inputs.map Port.name ++ module.outputs.map Port.name).Perm
      (module.ports.map Port.name) := by
    rw [← List.map_append]
    exact (List.filter_append_perm Port.isInput module.ports).map Port.name
  have logic := layout.netNames_append_heldNames_perm
  refine (List.perm_iff_count.mpr fun name => ?_).nodup_iff.mpr describes.nodup
  have portCount := ports.count_eq name
  have logicCount := logic.count_eq name
  simp only [List.count_append, List.count_cons] at portCount logicCount ⊢
  omega

theorem continuousCount_eq (describes : layout.Describes module descriptor) (name : String) :
    module.continuousCount name =
      (layout.netNames ++ module.outputs.map Port.name).count name := by
  rw [Module.continuousCount, Module.continuous_items describes.supported, describes.driverNames]

private theorem procedural_logic (describes : layout.Describes module descriptor) :
    (layout.circuits.flatMap fun circuit =>
      (circuit.logic.flatMap fun item => item.procedural.dedup).filter
        (· ≠ layout.storage.name)) = layout.heldNames := by
  have readWrites : ∀ plan ∈ layout.readWrite,
      ((plan.circuit layout.storage).logic.flatMap fun item => item.procedural.dedup).filter
        (· ≠ layout.storage.name) = [plan.held] := by
    intro plan member
    simp [ReadWritePlan.circuit, ReadWritePlan.logic, Item.procedural, ReadWritePlan.settle,
      ReadWritePlan.store, Statement.assignedAll, Statement.assigned, Storage.slot, Expr.assigned,
      describes.held_ne_storage member]
  have writes : ∀ plan ∈ layout.write,
      ((plan.circuit layout.storage).logic.flatMap fun item => item.procedural.dedup).filter
        (· ≠ layout.storage.name) = [] := by
    intro plan _
    simp [WritePlan.circuit, Item.procedural, WritePlan.store, Statement.assignedAll,
      Statement.assigned, Storage.slot, Expr.assigned]
  rw [circuits, List.flatMap_append, List.flatMap_append, List.flatMap_map, List.flatMap_map,
    List.flatMap_map, List.flatMap_congr readWrites, List.flatMap_congr writes]
  simp [ReadPlan.circuit, flatMap_nothing, heldNames, ← List.map_eq_flatMap]

/-- Blocks assign the storage, the registers behind inputs and those of the read-write ports, each
register in one block. -/
theorem proceduralCount_eq (describes : layout.Describes module descriptor) {name : String}
    (other : name ≠ layout.storage.name) :
    module.proceduralCount name = (layout.registers ++ layout.heldNames).count name := by
  have registers : ∀ circuit ∈ layout.circuits,
      (circuit.lanes.flatMap Lane.registers).filter (· ≠ layout.storage.name) =
        circuit.lanes.flatMap Lane.registers := by
    intro circuit member
    apply List.filter_eq_self.mpr
    intro register inLanes
    obtain ⟨lane, inCircuit, inLane⟩ := List.mem_flatMap.mp inLanes
    simpa using describes.register_ne_storage (mem_registers member inCircuit inLane)
  have assigned : ((module.items.flatMap fun item => item.procedural.dedup).filter
      (· ≠ layout.storage.name)).Perm (layout.registers ++ layout.heldNames) := by
    rw [describes.items, layout.procedural_items, List.filter_flatMap,
      ← describes.procedural_logic]
    simp only [List.filter_append]
    rw [List.flatMap_congr fun circuit member => by rw [registers circuit member]]
    exact (List.flatMap_append_perm layout.circuits _ _).symm
  rw [module.proceduralCount_eq, ← assigned.count_eq, List.count_filter (by simpa using other)]

private theorem counts_of_clocked (describes : layout.Describes module descriptor) {name : String}
    (member : name ∈ layout.registers ++ layout.heldNames) :
    module.proceduralCount name = 1 ∧ module.continuousCount name = 0 := by
  have distinct := List.nodup_cons.mp (List.nodup_append.mp describes.nodup_driven).2.1
  have parts := List.nodup_append.mp distinct.2
  have other : name ≠ layout.storage.name := fun same =>
    distinct.1 (List.mem_append_left _ (same ▸ member))
  rw [describes.proceduralCount_eq other, describes.continuousCount_eq]
  exact ⟨List.count_eq_one_of_mem parts.1 member,
    List.count_eq_zero_of_not_mem fun driven => parts.2.2 name member name driven rfl⟩

private theorem counts_of_driven (describes : layout.Describes module descriptor) {name : String}
    (member : name ∈ layout.netNames ++ module.outputs.map Port.name) :
    module.proceduralCount name = 0 ∧ module.continuousCount name = 1 := by
  have distinct := List.nodup_cons.mp (List.nodup_append.mp describes.nodup_driven).2.1
  have parts := List.nodup_append.mp distinct.2
  have other : name ≠ layout.storage.name := fun same =>
    distinct.1 (List.mem_append_right _ (same ▸ member))
  rw [describes.proceduralCount_eq other, describes.continuousCount_eq]
  exact ⟨List.count_eq_zero_of_not_mem fun clocked => parts.2.2 name clocked name member rfl,
    List.count_eq_one_of_mem parts.2.1 member⟩

private theorem counts_of_input (describes : layout.Describes module descriptor) {port : Port}
    (given : port ∈ module.inputs) :
    module.proceduralCount port.name = 0 ∧ module.continuousCount port.name = 0 := by
  have apart := fun name inside => (List.nodup_append.mp describes.nodup_driven).2.2 port.name
    (List.mem_map.mpr ⟨port, given, rfl⟩) name inside
  rw [describes.proceduralCount_eq (apart _ List.mem_cons_self), describes.continuousCount_eq]
  constructor <;> refine List.count_eq_zero_of_not_mem fun inside => apart port.name ?_ rfl
  · exact List.mem_cons_of_mem _ (List.mem_append_left _ inside)
  · exact List.mem_cons_of_mem _ (List.mem_append_right _ inside)

private theorem clocked_of_assigns_storage (describes : layout.Describes module descriptor) :
    ∀ block ∈ module.blocks, layout.storage.name ∈ Statement.assignedAll block.2 →
      ∃ clock, block.1 = .posedge clock := by
  have each : ∀ item ∈ layout.items, ∀ block, item.block? = some block →
      layout.storage.name ∈ Statement.assignedAll block.2 → ∃ clock, block.1 = .posedge clock := by
    refine layout.forall_mem_items ?_ ?_ ?_ ?_ ?_
    · rintro block ⟨⟩
    · intro circuit _ lane _ capture _
      refine ⟨by rintro block ⟨⟩, ?_⟩
      rintro block ⟨⟩ -
      exact ⟨_, rfl⟩
    · intro plan member item inLogic block found assigns
      have other := describes.held_ne_storage member
      simp only [ReadWritePlan.logic, List.mem_cons, List.not_mem_nil, or_false] at inLogic
      rcases inLogic with rfl | rfl | rfl | rfl | rfl | rfl | rfl <;> cases found
      · simp [ReadWritePlan.settle, Statement.assignedAll, Statement.assigned, Expr.assigned,
          other.symm] at assigns
      · exact ⟨_, rfl⟩
    · rintro plan _ block ⟨⟩ -
      exact ⟨_, rfl⟩
    · rintro block ⟨⟩
  intro block member
  rw [Module.blocks, describes.items] at member
  obtain ⟨item, inItems, found⟩ := List.mem_filterMap.mp member
  exact each item inItems block found

theorem singlyDriven (describes : layout.Describes module descriptor) :
    module.SinglyDriven layout.storage.name where
  storageFirst := by
    rw [describes.items]
    exact ⟨_, _, rfl⟩
  storageClocked := by
    refine ⟨?_, describes.clocked_of_assigns_storage⟩
    have distinct := List.nodup_cons.mp (List.nodup_append.mp describes.nodup_driven).2.1
    rw [describes.continuousCount_eq]
    exact List.count_eq_zero_of_not_mem fun driven =>
      distinct.1 (List.mem_append_right _ driven)
  registers declaration declared register other := by
    apply describes.counts_of_clocked
    rcases describes.cases_of_mem_declarations declared with
      rfl | ⟨circuit, inLayout, lane, inCircuit, name, inLane, rfl⟩ |
        ⟨plan, inReadWrite, rfl | rfl | rfl⟩
    · exact absurd rfl other
    · exact List.mem_append_left _ (mem_registers inLayout inCircuit inLane)
    · cases register
    · cases register
    · exact List.mem_append_right _ (List.mem_map.mpr ⟨plan, inReadWrite, rfl⟩)
  nets declaration declared net := by
    refine describes.counts_of_driven (List.mem_append_left _ ?_)
    rcases describes.cases_of_mem_declarations declared with
      rfl | ⟨circuit, inLayout, lane, inCircuit, name, inLane, rfl⟩ |
        ⟨plan, inReadWrite, rfl | rfl | rfl⟩
    · cases net
    · cases net
    · exact List.mem_flatMap.mpr ⟨plan, inReadWrite, by simp [Declaration.net]⟩
    · exact List.mem_flatMap.mpr ⟨plan, inReadWrite, by simp [Declaration.net]⟩
    · cases net
  outputs port given :=
    describes.counts_of_driven (List.mem_append_right _ (List.mem_map.mpr ⟨port, given, rfl⟩))
  inputs _ given := describes.counts_of_input given

end Memory.Layout.Describes
end Multiport
