import Multiport.Proofs.Memory.Wiring
import Multiport.Proofs.Simulation.Watching

namespace Multiport

namespace Table

variable {Value : Type}

private theorem get?_insertAll_congr {first second : Table Value} {name : String}
    (same : first.get? name = second.get? name) (entries : List (String × Value)) :
    (first.insertAll entries).get? name = (second.insertAll entries).get? name := by
  induction entries generalizing first second with
  | nil => exact same
  | cons entry rest ih =>
    refine ih ?_
    rw [get?_insert, get?_insert, same]

theorem get?_insertAll_between (table : Table Value) (early late : List (String × Value))
    {middle : List (String × Value)} {name : String} (absent : ∀ entry ∈ middle, entry.1 ≠ name) :
    (table.insertAll (early ++ middle ++ late)).get? name =
      (table.insertAll (early ++ late)).get? name := by
  rw [insertAll_append, insertAll_append, insertAll_append]
  exact get?_insertAll_congr (get?_insertAll_of_forall_ne absent) late

end Table

namespace Simulator

def EdgesSucceed (sim : Simulator) : List Operation → Prop
  | [] => True
  | operation :: rest =>
      (operation.isEdge = true → (sim.perform operation).1 = .ok ()) ∧
        EdgesSucceed (sim.perform operation).2 rest

theorem edgesSucceed_concat {sim : Simulator} {operations : List Operation}
    {operation : Operation} :
    sim.EdgesSucceed (operations ++ [operation]) ↔ sim.EdgesSucceed operations ∧
      (operation.isEdge = true → ((sim.run operations).perform operation).1 = .ok ()) := by
  induction operations generalizing sim with
  | nil => simp [EdgesSucceed]
  | cons first rest ih =>
    rw [List.cons_append, EdgesSucceed, EdgesSucceed, ih, and_assoc]
    rfl

/-- Runs in which all edges succeed change registers at edges only. -/
theorem steady_edgesSucceed (start : Simulator) (clock : Signal) :
    start.Steady clock start.EdgesSucceed where
  beginning _ _ succeed := (edgesSucceed_concat.mp succeed).1
  proceeds operations operation succeed := by
    cases edge : operation.isEdge with
    | true => exact .inl ((edgesSucceed_concat.mp succeed).2 edge)
    | false =>
      refine .inr ⟨?_, registers_perform edge⟩
      cases own : operation.isEdgeOf clock with
      | false => rfl
      | true => exact (Operation.isEdge_of_isEdgeOf own).symm.trans edge

theorem exists_run_of_mem_edges {start past : Simulator} {clock : Signal}
    {operations : List Operation} (member : past ∈ start.edges clock operations) :
    ∃ earlier, past = start.run earlier := by
  induction operations using List.reverseRecOn with
  | nil => cases member
  | append_singleton earlier operation ih =>
    rw [edges_concat] at member
    rcases List.mem_append.mp member with here | before
    · split at here
      · exact ⟨earlier, List.mem_singleton.mp here⟩
      · cases here
    · exact ih before

theorem exists_run_of_past? {start past : Simulator} {clock : Signal}
    {operations : List Operation} {count : Nat}
    (found : start.past? clock operations count = some past) :
    ∃ earlier, past = start.run earlier := by
  rcases List.mem_cons.mp (List.mem_of_getElem? found) with present | before
  · exact ⟨operations, present⟩
  · exact exists_run_of_mem_edges before

theorem past?_eq_none_iff {start : Simulator} {clock : Signal} {operations : List Operation}
    {count : Nat} :
    start.past? clock operations count = none ↔
      (start.edges clock operations).length < count := by
  rw [past?, List.getElem?_eq_none_iff, List.length_cons, Nat.lt_iff_add_one_le]

end Simulator

namespace Memory.Lane

/-- The lane stands in the module between other items, none of which assigns its registers. -/
structure StandsIn (lane : Lane) (clock : String) (before after : List Item)
    (module : Module) : Prop where
  items : module.items = before ++ lane.items (.ident clock) ++ after
  distinct : module.names.Nodup
  alone : ∀ register ∈ lane.registers, ∀ item ∈ before ++ after, register ∉ item.assigned

namespace StandsIn

variable {lane : Lane} {clock : String} {before after : List Item} {module : Module}
  {sim : Simulator}

private theorem flatMap_items (stands : lane.StandsIn clock before after module) {α : Type}
    (view : Item → List α) :
    module.items.flatMap view =
      before.flatMap view ++ (lane.items (.ident clock)).flatMap view ++ after.flatMap view := by
  rw [stands.items, List.flatMap_append, List.flatMap_append]

theorem declarations (stands : lane.StandsIn clock before after module) :
    module.declarations =
      before.flatMap Item.declared ++ lane.declarations ++ after.flatMap Item.declared := by
  rw [Module.declarations, stands.flatMap_items, declared_items]

theorem clocked (stands : lane.StandsIn clock before after module)
    (state : sim.Simulates module) :
    sim.clocked = before.flatMap Item.clockedBlocks ++ lane.blocks clock ++
      after.flatMap Item.clockedBlocks := by
  rw [state.clocked, stands.flatMap_items, clockedBlocks_items]

theorem settledEntries (stands : lane.StandsIn clock before after module) :
    module.settledEntries = (before ++ after).flatMap Item.settledEntries := by
  rw [Module.settledEntries, stands.flatMap_items, settledEntries_items, List.append_nil,
    List.flatMap_append]

theorem driverEntries (stands : lane.StandsIn clock before after module) :
    module.driverEntries = (before ++ after).flatMap Item.driverEntries := by
  rw [Module.driverEntries, stands.flatMap_items, driverEntries_items, List.append_nil,
    List.flatMap_append]

theorem declared (stands : lane.StandsIn clock before after module) {register : String}
    (inLane : register ∈ lane.registers) :
    Declaration.reg lane.source.width register ∈ module.declarations := by
  rw [stands.declarations]
  exact List.mem_append_left _ (List.mem_append_right _
    (List.mem_map.mpr ⟨register, inLane, rfl⟩))

theorem nodup_registers (stands : lane.StandsIn clock before after module) :
    lane.registers.Nodup := by
  have names : lane.declarations.map Declaration.name = lane.registers := by
    simp [Lane.declarations, Function.comp_def, Declaration.reg]
  have declared := (List.nodup_append.mp stands.distinct).2.1
  rw [stands.declarations, List.map_append, List.map_append, names] at declared
  exact (List.nodup_append.mp (List.nodup_append.mp declared).1).2.1

theorem unsettled (stands : lane.StandsIn clock before after module) {register : String}
    (inLane : register ∈ lane.registers) : register ∉ module.settledEntries.map Prod.fst := by
  rw [stands.settledEntries]
  intro settled
  obtain ⟨entry, entered, rfl⟩ := List.mem_map.mp settled
  obtain ⟨item, around, inItem⟩ := List.mem_flatMap.mp entered
  exact stands.alone entry.1 inLane item around (Item.mem_of_settledEntries inItem).2

theorem register (stands : lane.StandsIn clock before after module) (state : sim.Simulates module)
    {register : String} (inLane : register ∈ lane.registers) :
    sim.inputs.get? register = none ∧
      ∃ bits, sim.registers.get? register = some bits ∧ bits.width = lane.source.width :=
  ⟨state.inputs_of_declaration stands.distinct (stands.declared inLane),
    state.register stands.distinct (stands.declared inLane) (stands.unsettled inLane)⟩

theorem exists_eval_register (stands : lane.StandsIn clock before after module)
    (state : sim.Simulates module) {register : String} (inLane : register ∈ lane.registers) :
    ∃ bits, (Expr.ident register).eval sim.environment = .ok bits := by
  obtain ⟨free, bits, found, -⟩ := stands.register state inLane
  have held : sim.held? register = some bits := by simp [Simulator.held?, free, found]
  exact ⟨bits, (Simulator.Evaluates.held held).eval (by decide)⟩

theorem captures (stands : lane.StandsIn clock before after module) (state : sim.Simulates module)
    {signal : Signal} (named : signal.expr = .ident clock) {capture : String × Expr}
    (captured : capture ∈ lane.captures) :
    sim.Captures signal capture.1 lane.source.width capture.2 := by
  obtain ⟨free, holds⟩ := stands.register state (register_of_mem_captures captured)
  obtain ⟨early, late, split⟩ := List.append_of_mem captured
  have once : capture.1 ∉ early.map Prod.fst ++ late.map Prod.fst := by
    have distinct := stands.nodup_registers
    rw [← captures_fst lane.source.expr lane.registers] at distinct
    rw [show capturesFrom lane.source.expr lane.registers = _ from split, List.map_append,
      List.map_cons, List.nodup_middle] at distinct
    exact (List.nodup_cons.mp distinct).1
  let block (capture : String × Expr) : ClockedBlock := ⟨clock, captureBody capture⟩
  refine ⟨⟨clock, before.flatMap Item.clockedBlocks ++ early.map block,
    late.map block ++ after.flatMap Item.clockedBlocks, named, ?_, ?_⟩, free, holds⟩
  · rw [stands.clocked state, blocks, split]
    simp [block]
  · -- Other items assign none of the registers, and other captures of the lane other registers.
    have foreign : ∀ items : List Item, (∀ item ∈ items, item ∈ before ++ after) →
        ∀ other ∈ items.flatMap Item.clockedBlocks,
          capture.1 ∉ Statement.assignedAll other.body := by
      intro items inside other member assigns
      obtain ⟨item, inItems, inItem⟩ := List.mem_flatMap.mp member
      exact stands.alone capture.1 (register_of_mem_captures captured) item (inside item inItems)
        ((Item.mem_of_clockedBlocks inItem).2 capture.1 assigns)
    have sibling : ∀ captures : List (String × Expr), capture.1 ∉ captures.map Prod.fst →
        ∀ other ∈ captures.map block, capture.1 ∉ Statement.assignedAll other.body := by
      intro captures absent other member assigns
      obtain ⟨own, inCaptures, rfl⟩ := List.mem_map.mp member
      have same : capture.1 = own.1 := List.mem_singleton.mp assigns
      exact absent (same ▸ List.mem_map.mpr ⟨own, inCaptures, rfl⟩)
    rw [List.mem_append, not_or] at once
    simp only [List.forall_mem_append]
    exact ⟨⟨foreign before fun item => List.mem_append_left after, sibling early once.1⟩,
      sibling late once.2, foreign after fun item => List.mem_append_right before⟩

/-- After any run in which all edges succeed, what comes out of the lane is what went in as many
edges ago as it has registers. -/
theorem eval_output (stands : lane.StandsIn clock before after module) {signal : Signal}
    (named : signal.expr = .ident clock)
    (computes : ∀ operations, ∃ bits,
      lane.source.expr.eval ((Simulator.elaborated module).run operations).environment = .ok bits ∧
        bits.width = lane.source.width)
    {operations : List Operation}
    (succeed : (Simulator.elaborated module).EdgesSucceed operations) :
    lane.output.expr.eval ((Simulator.elaborated module).run operations).environment =
      .ok ((Simulator.elaborated module).sample operations signal lane.registers.length
        lane.source) := by
  have start := Simulator.simulates_elaborated module
  have reading := lane.reading_output
    ((Simulator.elaborated module).steady_edgesSucceed signal)
    (fun capture captured => stands.captures start named captured)
    (fun register inLane => Simulator.reading_register_elaborated stands.distinct
      (stands.declared inLane) (stands.unsettled inLane))
    (fun earlier _ => by
      obtain ⟨bits, evaluated, wide⟩ := computes earlier
      rw [Simulator.reading_of_eval evaluated]
      exact wide)
    operations succeed
  -- Without registers the lane shows its source, and otherwise the last of them.
  have evaluates : ∃ bits, lane.output.expr.eval
      ((Simulator.elaborated module).run operations).environment = .ok bits := by
    cases last : lane.registers.getLast? with
    | none =>
      obtain ⟨bits, evaluated, -⟩ := computes operations
      exact ⟨bits, by simpa [output, last] using evaluated⟩
    | some register =>
      obtain ⟨bits, evaluated⟩ :=
        stands.exists_eval_register (start.run operations) (List.mem_of_getLast? last)
      exact ⟨bits, by simpa [output, last] using evaluated⟩
  obtain ⟨bits, evaluated⟩ := evaluates
  rw [evaluated, ← reading, Simulator.reading_of_eval evaluated]

/-- So nothing is known behind the lane after fewer edges than it has registers, and otherwise it
shows what the signal was worth before as many edges. -/
theorem eval_output_cases (stands : lane.StandsIn clock before after module) {signal : Signal}
    (named : signal.expr = .ident clock)
    (computes : ∀ operations, ∃ bits,
      lane.source.expr.eval ((Simulator.elaborated module).run operations).environment = .ok bits ∧
        bits.width = lane.source.width)
    {operations : List Operation}
    (succeed : (Simulator.elaborated module).EdgesSucceed operations) :
    let start := Simulator.elaborated module
    let shown := lane.output.expr.eval (start.run operations).environment
    ((start.edges signal operations).length < lane.registers.length →
      shown = .ok (.x lane.source.width)) ∧
    (lane.registers.length ≤ (start.edges signal operations).length →
      ∃ past, start.past? signal operations lane.registers.length = some past ∧
        shown = lane.source.expr.eval past.environment) := by
  intro start shown
  have sampled : shown = _ := stands.eval_output named computes succeed
  rw [sampled, Simulator.sample]
  constructor
  · intro few
    rw [Simulator.past?_eq_none_iff.mpr few]
  · intro enough
    cases found : start.past? signal operations lane.registers.length with
    | none => exact absurd (Simulator.past?_eq_none_iff.mp found) (Nat.not_lt.mpr enough)
    | some past =>
      obtain ⟨earlier, rfl⟩ := Simulator.exists_run_of_past? found
      obtain ⟨bits, evaluated, -⟩ := computes earlier
      exact ⟨_, rfl, by rw [evaluated]; exact congrArg _ (Simulator.reading_of_eval evaluated)⟩

/-- The blocks of the lane watch: what they capture can be evaluated, and goes to its registers. -/
theorem watches (stands : lane.StandsIn clock before after module) (state : sim.Simulates module)
    (computes : ∃ bits, lane.source.expr.eval sim.environment = .ok bits) :
    ∀ block ∈ lane.blocks clock, block.Watches lane.registers sim.environment := by
  intro block member
  obtain ⟨capture, captured, rfl⟩ := List.mem_map.mp member
  have evaluates : ∃ bits, capture.2.eval sim.environment = .ok bits := by
    rcases source_of_mem_capturesFrom captured with source | ⟨register, inLane, same⟩
    · exact source ▸ computes
    · exact same ▸ stands.exists_eval_register state inLane
  obtain ⟨bits, evaluated⟩ := evaluates
  refine ⟨_, updatesAll_captureBody_eq_ok_iff.mpr ⟨bits, evaluated, rfl⟩, fun update asked => ?_⟩
  exact ⟨capture.1, register_of_mem_captures captured, bits, List.mem_singleton.mp asked⟩

variable {plain : Module}

theorem declarations_plain (items : plain.items = before ++ after) :
    plain.declarations = before.flatMap Item.declared ++ after.flatMap Item.declared := by
  rw [Module.declarations, items, List.flatMap_append]

theorem not_mem_names (stands : lane.StandsIn clock before after module)
    (ports : plain.ports = module.ports) (items : plain.items = before ++ after)
    {register : String} (inLane : register ∈ lane.registers) : register ∉ plain.names := by
  have declared : register ∈ lane.declarations.map Declaration.name :=
    List.mem_map.mpr ⟨_, List.mem_map.mpr ⟨register, inLane, rfl⟩, rfl⟩
  have names : module.names.Perm (lane.declarations.map Declaration.name ++ plain.names) := by
    rw [Module.names, Module.names, stands.declarations, declarations_plain items, ports]
    simp only [List.map_append, ← List.append_assoc]
    refine List.Perm.append_right _ ?_
    rw [List.append_assoc (lane.declarations.map Declaration.name)]
    exact List.perm_append_comm
  exact fun known => (List.nodup_append.mp (names.nodup_iff.mp stands.distinct)).2.2
    register declared register known rfl

theorem supported (stands : lane.StandsIn clock before after module)
    (items : plain.items = before ++ after) (runs : module.Supported) : plain.Supported := by
  constructor
  · intro declaration declared
    refine runs.1 declaration ?_
    rw [declarations_plain items] at declared
    rw [stands.declarations, List.append_assoc]
    rcases List.mem_append.mp declared with early | late
    · exact List.mem_append_left _ early
    · exact List.mem_append_right _ (List.mem_append_right _ late)
  · intro item member
    refine runs.2 item ?_
    rw [items] at member
    rw [stands.items, List.append_assoc]
    rcases List.mem_append.mp member with early | late
    · exact List.mem_append_left _ early
    · exact List.mem_append_right _ (List.mem_append_right _ late)

theorem agrees_elaborated (stands : lane.StandsIn clock before after module)
    (ports : plain.ports = module.ports) (items : plain.items = before ++ after) :
    (Simulator.elaborated plain).AgreesOutside lane.registers (Simulator.elaborated module) := by
  have own : ∀ declaration ∈ lane.declarations, declaration.name ∈ lane.registers := by
    intro declaration member
    obtain ⟨register, inLane, rfl⟩ := List.mem_map.mp member
    exact inLane
  have arrays : lane.declarations.flatMap Declaration.arrayEntries = [] := by
    simp [Lane.declarations, List.flatMap_map, Declaration.arrayEntries, Declaration.reg]
  have settled : module.settledEntries = plain.settledEntries := by
    rw [stands.settledEntries, ← items, Module.settledEntries]
  have drivers : module.driverEntries = plain.driverEntries := by
    rw [stands.driverEntries, ← items, Module.driverEntries]
  constructor
  case widths =>
    intro name outside
    simp only [Simulator.elaborated, ports, declarations_plain items, stands.declarations,
      List.flatMap_append, ← List.append_assoc]
    refine Table.get?_insertAll_between _ _ _ fun entry member same => ?_
    obtain ⟨declaration, declared, inEntries⟩ := List.mem_flatMap.mp member
    have named := (Declaration.eq_of_mem_widthEntries inEntries).1
    exact outside (same ▸ named ▸ own declaration declared)
  case registers =>
    intro name outside
    simp only [Simulator.elaborated, Table.get?_foldl_erase, settled, declarations_plain items,
      stands.declarations, List.flatMap_append]
    congr 1
    refine Table.get?_insertAll_between _ _ _ fun entry member same => ?_
    obtain ⟨declaration, declared, inEntries⟩ := List.mem_flatMap.mp member
    obtain ⟨width, rfl, -⟩ := Declaration.eq_of_mem_registerEntries inEntries
    exact outside (same ▸ own _ declared)
  case arrays =>
    simp only [Simulator.elaborated, declarations_plain items, stands.declarations,
      List.flatMap_append, arrays, List.append_nil]
  case inputs => simp only [Simulator.elaborated, Module.inputs, ports]
  case drivers => simp only [Simulator.elaborated, drivers]
  case settled => simp only [Simulator.elaborated, settled]

/-- A module that does not mention the registers does not notice the lane. -/
theorem watched_elaborated (stands : lane.StandsIn clock before after module)
    (ports : plain.ports = module.ports) (items : plain.items = before ++ after)
    (unread : ∀ item ∈ plain.items, ∀ name ∈ item.reads, name ∉ lane.registers) :
    (Simulator.elaborated plain).Watched lane.registers (lane.blocks clock)
      (Simulator.elaborated module) where
  agrees := stands.agrees_elaborated ports items
  ignores := Simulator.ignores_elaborated unread fun item member name assigns inLane =>
    stands.alone name inLane item (items ▸ member) assigns
  present register inLane := by
    obtain ⟨-, bits, found, -⟩ :=
      stands.register (Simulator.simulates_elaborated module) inLane
    simp [Table.contains, found]
  clocked := by
    refine ⟨before.flatMap Item.clockedBlocks, after.flatMap Item.clockedBlocks, ?_, ?_⟩
    · simp only [Simulator.elaborated, items, List.flatMap_append]
    · exact stands.clocked (Simulator.simulates_elaborated module)

end StandsIn
end Memory.Lane
end Multiport
