import Multiport.Proofs.Memory.Edges

/-! What the outputs of a lowered memory show over a run. A read looks at the storage as it is now,
at the address of some edges ago; it shows the word if it was asked for by known inputs, and is
unknown otherwise. A read-write port never reads and writes at once, and its mask does not matter to
a read. -/
namespace Multiport.Memory

/-- The output shows the word at the address if that is wanted and there is one, and is unknown
otherwise. -/
structure Shows (sim : Simulator) (descriptor : Descriptor) (storage output : String)
    (wanted : Prop) (address : Bits) : Prop where
  word : wanted → ∀ index < descriptor.depth, address.toWord? = some index →
    ∃ bits, sim.memory storage index = .ok bits ∧ sim.get output = .ok bits
  unknown : ¬ (wanted ∧ ∃ index < descriptor.depth, address.toWord? = some index) →
    sim.get output = .ok (.x descriptor.dataWidth)

private theorem shows_of_get {sim : Simulator} {descriptor : Descriptor} {storage output : String}
    {wanted : Prop} [Decidable wanted] {address : Bits} {array : WordArray}
    (stored : sim.arrays.get? storage = some array) (wide : array.width = descriptor.dataWidth)
    (deep : array.depth = descriptor.depth)
    (shown : sim.get output =
      .ok (if wanted then array.read address else .x descriptor.dataWidth)) :
    Shows sim descriptor storage output wanted address where
  word holds index inside known := by
    have bound : index < array.words.size := Nat.lt_of_lt_of_eq inside deep.symm
    refine ⟨array.words[index], by simp [Simulator.memory, stored, bound], ?_⟩
    rw [shown, if_pos holds, WordArray.read, known]
    simp [bound]
  unknown missing := by
    rw [shown]
    split
    · rename_i holds
      rw [← wide]
      congr 1
      cases known : address.toWord? with
      | none => exact WordArray.read_of_toWord?_eq_none known
      | some index =>
        refine WordArray.read_of_depth_le known (Nat.not_lt.mp fun inside => ?_)
        exact missing ⟨holds, index, Nat.lt_of_lt_of_eq inside deep, known⟩
    · rfl

/-- The output is unknown while fewer edges of the clock have passed than the delay takes, and then
shows the word at the address of before that many edges, if it was wanted. -/
def ShowsDelayed (start : Simulator) (operations : List Operation) (clock : Signal) (stages : Nat)
    (descriptor : Descriptor) (storage output : String) (wanted : (Signal → Bits) → Prop)
    (address : Signal) : Prop :=
  match start.past? clock operations stages with
  | none => (start.run operations).get output = .ok (.x descriptor.dataWidth)
  | some past =>
      Shows (start.run operations) descriptor storage output (wanted past.reading)
        (past.reading address)

private theorem shows_of_sample {start : Simulator} {operations : List Operation} {clock : Signal}
    {stages : Nat} {descriptor : Descriptor} {storage output : String}
    {wanted : (Signal → Bits) → Prop} [∀ value, Decidable (wanted value)] {address : Signal}
    {array : WordArray} (early : ¬ wanted fun signal => .x signal.width)
    (stored : (start.run operations).arrays.get? storage = some array)
    (wide : array.width = descriptor.dataWidth) (deep : array.depth = descriptor.depth)
    (shown : (start.run operations).get output =
      .ok (if wanted (start.sample operations clock stages) then
        array.read (start.sample operations clock stages address)
      else .x descriptor.dataWidth)) :
    ShowsDelayed start operations clock stages descriptor storage output wanted address := by
  unfold ShowsDelayed
  split
  · rename_i fewer
    have sampled : start.sample operations clock stages = fun signal => .x signal.width := by
      funext signal
      simp [Simulator.sample, fewer]
    simpa only [sampled, if_neg early] using shown
  · rename_i past before
    have sampled : start.sample operations clock stages = past.reading := by
      funext signal
      simp [Simulator.sample, before]
    rw [sampled] at shown
    exact shows_of_get stored wide deep shown

/-- Each read port shows the word at the address that it was given before as many edges of its clock
as its latency, if it was enabled then. -/
def ReadsShow (module : Module) (descriptor : Descriptor) (start : Simulator)
    (interface : Interface) (storage : String) : Prop :=
  ∀ (operations : List Operation) (index : Nat) (port : ReadPort),
    interface.read[index]? = some port →
      ∃ output, module.outputs[index]? = some output ∧
        ShowsDelayed start operations port.clock descriptor.readLatency descriptor storage
          output.name (fun value => value port.enable = .ofNat 1 1) port.address

def nets (module : Module) : List Declaration :=
  module.declarations.filter fun declaration => declaration.kind = .net

/-- Each read-write port has a net for its writes, a net for its reads, never both true, and a
register that its output shows and that keeps no value of its own. The output shows the word at the
address that the port was given some edges of its clock ago, if it was enabled then for a read. -/
def ReadWritesShow (module : Module) (descriptor : Descriptor) (start : Simulator)
    (interface : Interface) (storage : String) : Prop :=
  ∀ (operations : List Operation) (index : Nat) (port : ReadWritePort),
    interface.readWrite[index]? = some port →
      let stages := max descriptor.readLatency descriptor.writeLatency - 1
      let sim := start.run operations
      let sampled := start.sample operations port.clock stages
      ∃ output writes reads held writing reading,
        module.outputs[descriptor.readPorts + index]? = some output ∧
        (nets module)[2 * index]? = some (.net 1 writes) ∧
        (nets module)[2 * index + 1]? = some (.net 1 reads) ∧
        .reg descriptor.dataWidth held ∈ module.declarations ∧
        (output.name, .ident held) ∈ module.driverEntries ∧
        sim.get writes = .ok writing ∧ sim.get reads = .ok reading ∧
        (writing.isTrue = true ↔ sampled port.enable = .ofNat 1 1 ∧
          sampled port.mask = .ofNat 1 1 ∧ sampled port.mode = .ofNat 1 1) ∧
        (reading.isTrue = true ↔ sampled port.enable = .ofNat 1 1 ∧
          sampled port.mode = .ofNat 1 0) ∧
        ¬ (writing.isTrue = true ∧ reading.isTrue = true) ∧
        sim.held? held = none ∧ sim.get held = sim.get output.name ∧
        ShowsDelayed start operations port.clock stages descriptor storage output.name
          (fun value => value port.enable = .ofNat 1 1 ∧ value port.mode = .ofNat 1 0) port.address

private theorem getElem?_flatMap_pair {α β : Type} (elements : List α) (first second : α → β)
    (index : Nat) :
    (elements.flatMap fun element => [first element, second element])[2 * index]? =
        elements[index]?.map first ∧
      (elements.flatMap fun element => [first element, second element])[2 * index + 1]? =
        elements[index]?.map second := by
  induction elements generalizing index with
  | nil => simp
  | cons element rest ih =>
    cases index with
    | zero => simp
    | succ index =>
      rw [show 2 * (index + 1) = 2 * index + 2 by omega]
      simpa using ih index

namespace Layout.Describes

variable {layout : Layout} {module : Module} {descriptor : Descriptor} {sim : Simulator}

theorem exists_output (describes : layout.Describes module descriptor) {index : Nat}
    {value : Signal} (placed : layout.values[index]? = some value) :
    ∃ output, module.outputs[index]? = some output ∧
      (output, value) ∈ layout.outputs.zip layout.values ∧ output.width = descriptor.dataWidth := by
  obtain ⟨bound, -⟩ := List.getElem?_eq_some_iff.mp placed
  rw [describes.length_values] at bound
  have found : layout.outputs[index]? = some layout.outputs[index] := List.getElem?_eq_getElem bound
  refine ⟨layout.outputs[index], by rw [← describes.outputs, found], ?_,
    describes.realizes.outputWidth _ (List.getElem_mem bound)⟩
  exact List.mem_of_getElem? (List.getElem?_zip_eq_some.mpr ⟨found, placed⟩)

theorem value_of_read {index : Nat} {plan : ReadPlan}
    (found : layout.read[index]? = some plan) :
    layout.values[index]? = some (plan.value layout.storage) := by
  obtain ⟨bound, -⟩ := List.getElem?_eq_some_iff.mp found
  rw [Layout.values, List.getElem?_append_left (by simpa using bound), List.getElem?_map, found,
    Option.map_some]

theorem value_of_readWrite (describes : layout.Describes module descriptor) {index : Nat}
    {plan : ReadWritePlan} (found : layout.readWrite[index]? = some plan) :
    layout.values[descriptor.readPorts + index]? =
      some (.ident plan.held layout.storage.width) := by
  have count := describes.realizes.groups.read
  simp only [Layout.interface, List.length_map] at count
  rw [Layout.values, List.getElem?_append_right (by simp [count]), List.length_map, count,
    Nat.add_sub_cancel_left, List.getElem?_map, found, Option.map_some]

theorem get_read (describes : layout.Describes module descriptor)
    (state : sim.Simulates module) {plan : ReadPlan} (member : plan ∈ layout.read) {output : Port}
    (driven : (output, plan.value layout.storage) ∈ layout.outputs.zip layout.values)
    (fits : output.width = descriptor.dataWidth) {array : WordArray}
    (stored : sim.arrays.get? layout.storage.name = some array) :
    sim.get output.name =
      .ok (if sim.reading plan.enable.output = .ofNat 1 1 then
        array.read (sim.reading plan.address.output)
      else .x descriptor.dataWidth) := by
  obtain ⟨present, found, wide, -, uniform⟩ := describes.storage state
  obtain rfl := Option.some.inj (stored.symm.trans found)
  have value := describes.evaluates_value state member stored
  rw [describes.realizes.width] at value wide
  refine (describes.evaluates_output state driven value ?_).get (by decide)
  split
  · rw [WordArray.width_read uniform, wide, fits]
  · rw [Bits.width_x, fits]

private theorem nets_eq (describes : layout.Describes module descriptor) :
    nets module = layout.readWrite.flatMap fun plan =>
      [.net 1 plan.writes, .net 1 plan.reads] := by
  have lanes : ∀ lane : Lane, lane.declarations.filter
      (fun declaration => declaration.kind = .net) = [] := by
    intro lane
    apply List.filter_eq_nil_iff.mpr
    intro declaration member
    obtain ⟨register, -, rfl⟩ := List.mem_map.mp member
    simp [Declaration.reg]
  rw [nets, describes.declarations, layout.declarations_items]
  simp [Declaration.array, List.filter_flatMap, circuits, Circuit.declarations, List.flatMap_map,
    lanes, flatMap_nothing, ReadPlan.circuit, ReadWritePlan.circuit, WritePlan.circuit,
    ReadWritePlan.logic, Item.declared, Declaration.net, Declaration.reg]

private theorem nets_of_readWrite (describes : layout.Describes module descriptor) {index : Nat}
    {plan : ReadWritePlan} (found : layout.readWrite[index]? = some plan) :
    (nets module)[2 * index]? = some (.net 1 plan.writes) ∧
      (nets module)[2 * index + 1]? = some (.net 1 plan.reads) := by
  obtain ⟨writes, reads⟩ := getElem?_flatMap_pair layout.readWrite
    (fun plan => Declaration.net 1 plan.writes) (fun plan => .net 1 plan.reads) index
  rw [describes.nets_eq, writes, reads, found]
  exact ⟨rfl, rfl⟩

/-- The output of a read-write port shows what the register of the port does. -/
theorem get_readWrite (describes : layout.Describes module descriptor)
    (state : sim.Simulates module) {plan : ReadWritePlan} (member : plan ∈ layout.readWrite)
    {output : Port} (driven : (output, .ident plan.held layout.storage.width) ∈
      layout.outputs.zip layout.values)
    (fits : output.width = descriptor.dataWidth) {array : WordArray}
    (stored : sim.arrays.get? layout.storage.name = some array) :
    sim.get output.name =
        .ok (if sim.reading plan.enable.output = .ofNat 1 1 ∧
            sim.reading plan.mode.output = .ofNat 1 0 then
          array.read (sim.reading plan.address.output)
        else .x descriptor.dataWidth) ∧
      sim.get plan.held = sim.get output.name := by
  obtain ⟨present, found, wide, -, uniform⟩ := describes.storage state
  obtain rfl := Option.some.inj (stored.symm.trans found)
  have value := describes.evaluates_held state member stored
  rw [describes.realizes.width] at value wide
  have shown := (describes.evaluates_output state driven value (by
    split
    · rw [WordArray.width_read uniform, wide, fits]
    · rw [Bits.width_x, fits])).get (by decide)
  exact ⟨shown, (value.get (by decide)).trans shown.symm⟩

end Layout.Describes

/-- The read ports of every lowered memory show delayed reads of the present storage, over every
run. -/
theorem outputs_of_read_ports {scope : Scope} {name : String} {ports : List Port}
    {descriptor : Descriptor} {options : LoweringOptions} {module : Module}
    (lowered : lower scope name ports descriptor options = .ok module)
    (distinct : (ports.map Port.name).Nodup) :
    ∃ start interface storage, Started module ports descriptor start interface storage ∧
      ReadsShow module descriptor start interface storage := by
  obtain ⟨layout, describes, samePorts⟩ := exists_describes_of_lower lowered distinct
  refine ⟨_, _, _, describes.started samePorts, ?_⟩
  intro operations index port found
  have state := (Simulator.simulates_elaborated module).run operations
  simp only [Layout.interface, List.getElem?_map, Option.map_eq_some_iff] at found
  obtain ⟨plan, planFound, rfl⟩ := found
  have member := List.mem_of_getElem? planFound
  obtain ⟨output, outputFound, driven, fits⟩ :=
    describes.exists_output (Layout.Describes.value_of_read planFound)
  obtain ⟨array, stored, wide, deep, -⟩ := describes.storage state
  rw [describes.realizes.width] at wide
  rw [describes.realizes.depth] at deep
  have delayed := fun lane (inPlan : lane ∈ plan.lanes) =>
    describes.reading_read member inPlan operations
  have shown := describes.get_read state member driven fits stored
  rw [delayed plan.enable (by simp [ReadPlan.lanes]),
    delayed plan.address (by simp [ReadPlan.lanes])] at shown
  refine ⟨output, outputFound, ?_⟩
  refine shows_of_sample ?_ stored wide deep shown
  simp only [(describes.widths_read member).2]
  exact Bits.x_one_ne_ofNat 1

theorem outputs_of_read_ports_of_threePorts :
    ∃ module, lower .top "memory" threePorts.ports threePorts .standard = .ok module ∧
      (threePorts.ports.map Port.name).Nodup ∧
      ∃ start interface storage, Started module threePorts.ports threePorts start interface storage ∧
        ReadsShow module threePorts start interface storage := by
  obtain ⟨module, lowered⟩ := exists_lower_threePorts
  have distinct : (threePorts.ports.map Port.name).Nodup := by decide
  exact ⟨module, lowered, distinct, outputs_of_read_ports lowered distinct⟩

/-- The read-write ports of every lowered memory show delayed reads of the present storage, and
never read and write at once, over every run. -/
theorem outputs_of_read_write_ports {scope : Scope} {name : String} {ports : List Port}
    {descriptor : Descriptor} {options : LoweringOptions} {module : Module}
    (lowered : lower scope name ports descriptor options = .ok module)
    (distinct : (ports.map Port.name).Nodup) :
    ∃ start interface storage, Started module ports descriptor start interface storage ∧
      ReadWritesShow module descriptor start interface storage := by
  obtain ⟨layout, describes, samePorts⟩ := exists_describes_of_lower lowered distinct
  refine ⟨_, _, _, describes.started samePorts, ?_⟩
  intro operations index port found
  have state := (Simulator.simulates_elaborated module).run operations
  simp only [Layout.interface, List.getElem?_map, Option.map_eq_some_iff] at found
  obtain ⟨plan, planFound, rfl⟩ := found
  have member := List.mem_of_getElem? planFound
  obtain ⟨output, outputFound, driven, fits⟩ :=
    describes.exists_output (describes.value_of_readWrite planFound)
  obtain ⟨array, stored, wide, deep, -⟩ := describes.storage state
  rw [describes.realizes.width] at wide
  rw [describes.realizes.depth] at deep
  obtain ⟨writing, writesIs, writingSingle, writingOne⟩ := describes.evaluates_writes state member
  obtain ⟨reading, readsIs, readingSingle, readingOne⟩ := describes.evaluates_reads state member
  obtain ⟨shown, same⟩ := describes.get_readWrite state member driven fits stored
  have delayed := fun lane (inPlan : lane ∈ plan.lanes) =>
    describes.reading_readWrite member inPlan operations
  simp only [ReadWritePlan.lanes, List.forall_mem_cons] at delayed
  obtain ⟨enable, address, mode, mask, -⟩ := delayed
  rw [enable, mask, mode, ← Bits.isTrue_iff_of_width_eq_one writingSingle] at writingOne
  rw [enable, mode, ← Bits.isTrue_iff_of_width_eq_one readingSingle] at readingOne
  rw [enable, address, mode] at shown
  have declared := (Layout.mem_declarations_of_readWrite member).2.2
  rw [← describes.declarations, describes.realizes.width] at declared
  have drives : (output.name, .ident plan.held) ∈ module.driverEntries := by
    rw [describes.driverEntries]
    exact List.mem_append_right _ (List.mem_map.mpr ⟨_, driven, rfl⟩)
  obtain ⟨writesNet, readsNet⟩ := describes.nets_of_readWrite planFound
  refine ⟨output, plan.writes, plan.reads, plan.held, writing, reading, outputFound, writesNet,
    readsNet, declared, drives, writesIs.get (by decide), readsIs.get (by decide), writingOne,
    readingOne, ?_, describes.held?_held state member, same, ?_⟩
  · rintro ⟨written, read⟩
    exact Bits.ofNat_one_ne_zero
      ((writingOne.mp written).2.2.symm.trans (readingOne.mp read).2)
  · refine shows_of_sample ?_ stored wide deep shown
    simp only [(describes.widths_readWrite member).2.1]
    exact fun early => Bits.x_one_ne_ofNat 1 early.1

theorem outputs_of_read_write_ports_of_threePorts :
    ∃ module, lower .top "memory" threePorts.ports threePorts .standard = .ok module ∧
      (threePorts.ports.map Port.name).Nodup ∧
      ∃ start interface storage, Started module threePorts.ports threePorts start interface storage ∧
        ReadWritesShow module threePorts start interface storage := by
  obtain ⟨module, lowered⟩ := exists_lower_threePorts
  have distinct : (threePorts.ports.map Port.name).Nodup := by decide
  exact ⟨module, lowered, distinct, outputs_of_read_write_ports lowered distinct⟩

end Multiport.Memory
