import Mathlib.Data.List.Induction
import Multiport.Proofs.Simulation.Arrangement

/-! Registers that only watch. A module may hold more registers that nothing else mentions, and more
clocked blocks that capture into them and never fail. Every other name, and every array, is then
worth what it is worth without them, whatever is done, even where an edge fails half-way. -/
namespace Multiport

namespace Statement

theorem readsAll_eq_flatMap (body : List Statement) : readsAll body = body.flatMap reads := by
  induction body with
  | nil => rfl
  | cons statement rest ih => simp [readsAll, ih]

theorem assignedAll_eq_flatMap (body : List Statement) :
    assignedAll body = body.flatMap assigned := by
  induction body with
  | nil => rfl
  | cons statement rest ih => simp [assignedAll, ih]

mutual

private theorem signals_subset_reads : ∀ statement : Statement, statement.signals ⊆ statement.reads
  | blocking _ value => fun _ member =>
    List.mem_append_right _ (value.signals_subset_reads member)
  | nonblocking _ _ => List.nil_subset _
  | cond condition onTrue onFalse => by
    refine List.append_subset.mpr ⟨fun name member => ?_, List.append_subset.mpr ⟨?_, ?_⟩⟩
    · exact List.mem_append_left _ (condition.signals_subset_reads member)
    · exact fun name member => List.mem_append_right _
        (List.mem_append_left _ (signalsAll_subset_readsAll onTrue member))
    · exact fun name member => List.mem_append_right _
        (List.mem_append_right _ (signalsAll_subset_readsAll onFalse member))

/-- The signals that a combinational block may ask for stand in it. -/
theorem signalsAll_subset_readsAll : ∀ body : List Statement, signalsAll body ⊆ readsAll body
  | [] => List.nil_subset _
  | statement :: rest => by
    refine List.append_subset.mpr ⟨fun name member => ?_, fun name member => ?_⟩
    · exact List.mem_append_left _ (signals_subset_reads statement member)
    · exact List.mem_append_right _ (signalsAll_subset_readsAll rest member)

end

mutual

private theorem blockingNames_subset_assigned :
    ∀ statement : Statement, statement.blockingNames ⊆ statement.assigned
  | blocking target _ => by
    intro name member
    have plain := Expr.name?_eq_some_iff.mp (Option.mem_toList.mp member)
    simp [assigned, plain, Expr.assigned]
  | nonblocking _ _ => List.nil_subset _
  | cond _ onTrue onFalse => by
    refine List.append_subset.mpr ⟨fun name member => ?_, fun name member => ?_⟩
    · exact List.mem_append_left _ (blockingNamesAll_subset_assignedAll onTrue member)
    · exact List.mem_append_right _ (blockingNamesAll_subset_assignedAll onFalse member)

theorem blockingNamesAll_subset_assignedAll :
    ∀ body : List Statement, blockingNamesAll body ⊆ assignedAll body
  | [] => List.nil_subset _
  | statement :: rest => by
    refine List.append_subset.mpr ⟨fun name member => ?_, fun name member => ?_⟩
    · exact List.mem_append_left _ (blockingNames_subset_assigned statement member)
    · exact List.mem_append_right _ (blockingNamesAll_subset_assignedAll rest member)

end

mutual

private theorem updates_congr {first second : Environment} (arrays : first.arrays = second.arrays) :
    ∀ statement : Statement,
      (∀ name ∈ statement.reads, first.value name = second.value name) →
      statement.updates first = statement.updates second
  | blocking _ _, _ => rfl
  | nonblocking target value, values => by
    have given := Expr.eval_congr arrays fun name member =>
      values name (List.mem_append_right target.indexReads member)
    have aims : ∀ bits, Update.ofTarget first bits target = Update.ofTarget second bits target := by
      intro bits
      cases target with
      | word array index =>
        have address := Expr.eval_congr arrays fun name member =>
          values name (List.mem_append_left value.reads member)
        simp only [Update.ofTarget, address]
      | ident | number | paren | binary | cond => rfl
    simp only [updates, given, aims]
  | cond condition onTrue onFalse, values => by
    have decides := Expr.eval_congr arrays fun name member =>
      values name (List.mem_append_left _ member)
    have inTrue := updatesAll_congr arrays onTrue fun name member =>
      values name (List.mem_append_right _ (List.mem_append_left _ member))
    have inFalse := updatesAll_congr arrays onFalse fun name member =>
      values name (List.mem_append_right _ (List.mem_append_right _ member))
    simp only [updates, decides, inTrue, inFalse]

/-- What clocked statements ask for depends on the arrays and on the names in them. -/
theorem updatesAll_congr {first second : Environment} (arrays : first.arrays = second.arrays) :
    ∀ body : List Statement, (∀ name ∈ readsAll body, first.value name = second.value name) →
      updatesAll first body = updatesAll second body
  | [], _ => rfl
  | statement :: rest, values => by
    have here := updates_congr arrays statement fun name member =>
      values name (List.mem_append_left _ member)
    have later := updatesAll_congr arrays rest fun name member =>
      values name (List.mem_append_right _ member)
    simp only [updatesAll, here, later]

end

end Statement

namespace Item

theorem mem_reads_of_driverEntries {item : Item} {entry : String × Expr}
    (member : entry ∈ item.driverEntries) : ∀ read ∈ entry.2.signals, read ∈ item.reads := by
  cases item with
  | assigns driven =>
    obtain ⟨assign, inDriven, named⟩ := List.mem_flatMap.mp member
    obtain ⟨name, -, rfl⟩ := List.mem_map.mp named
    exact fun read asked => List.mem_flatMap.mpr
      ⟨assign, inDriven, List.mem_append_right _ (assign.value.signals_subset_reads asked)⟩
  | declarations declared | group before after items => cases member
  | always event body => cases member

/-- What settles a name asks for signals that the item reads, and the item assigns the name. -/
theorem mem_of_settledEntries {item : Item} {entry : String × List Statement}
    (member : entry ∈ item.settledEntries) :
    (∀ read ∈ Statement.signalsAll entry.2, read ∈ item.reads) ∧ entry.1 ∈ item.assigned := by
  match item with
  | .always .anyChange body =>
    obtain ⟨name, settles, rfl⟩ := List.mem_map.mp member
    exact ⟨fun read asked => Statement.signalsAll_subset_readsAll body asked,
      Statement.blockingNamesAll_subset_assignedAll body settles⟩
  | .always (.posedge clock) body => cases member
  | .declarations declared | .assigns driven | .group before after items => cases member

/-- A block that runs at edges reads and assigns what its item does. -/
theorem mem_of_clockedBlocks {item : Item} {block : ClockedBlock}
    (member : block ∈ item.clockedBlocks) :
    (∀ name ∈ Statement.readsAll block.body, name ∈ item.reads) ∧
      ∀ name ∈ Statement.assignedAll block.body, name ∈ item.assigned := by
  match item with
  | .always (.posedge clock) body =>
    obtain ⟨name, -, rfl⟩ := List.mem_map.mp member
    exact ⟨fun read asked => List.mem_append_right _ asked, fun name assigned => assigned⟩
  | .always .anyChange body => cases member
  | .declarations declared | .assigns driven | .group before after items => cases member

end Item

/-- Updates of registers among the given names. -/
def Update.Within (names : List String) (update : Update) : Prop :=
  ∃ name ∈ names, ∃ value, update = .register name value

/-- The block does not fail, and asks for nothing but values of registers among the names. -/
def ClockedBlock.Watches (names : List String) (environment : Environment)
    (block : ClockedBlock) : Prop :=
  ∃ asked, Statement.updatesAll environment block.body = .ok asked ∧
    ∀ update ∈ asked, update.Within names

theorem ClockedBlock.updatesAll_of_watches {names : List String} {environment : Environment}
    {blocks : List ClockedBlock} (watches : ∀ block ∈ blocks, block.Watches names environment) :
    ∃ asked, Statement.updatesAll environment (blocks.flatMap ClockedBlock.body) = .ok asked ∧
      ∀ update ∈ asked, update.Within names := by
  refine ⟨_, updatesAll_flatMap_eq_ok_iff.mpr ⟨fun block member => ?_, rfl⟩, ?_⟩
  · obtain ⟨asked, success, -⟩ := watches block member
    exact ⟨asked, success⟩
  · intro update member
    obtain ⟨block, inBlocks, demanded⟩ := List.mem_flatMap.mp member
    obtain ⟨asked, success, within⟩ := watches block inBlocks
    exact within update (demands_of_ok success ▸ demanded)

namespace Simulator

/-- What one state has under a name, the other has too, but for some names of registers. -/
structure AgreesOutside (names : List String) (first second : Simulator) : Prop where
  widths : ∀ name ∉ names, second.widths.get? name = first.widths.get? name
  inputs : second.inputs.get? = first.inputs.get?
  registers : ∀ name ∉ names, second.registers.get? name = first.registers.get? name
  arrays : second.arrays.get? = first.arrays.get?
  drivers : second.drivers.get? = first.drivers.get?
  settled : second.settled.get? = first.settled.get?

/-- No driver and no block mentions any of the names. -/
structure Ignores (sim : Simulator) (names : List String) : Prop where
  driven : ∀ name driver, sim.drivers.get? name = some driver →
    ∀ read ∈ driver.signals, read ∉ names
  settled : ∀ name body, sim.settled.get? name = some body →
    ∀ read ∈ Statement.signalsAll body, read ∉ names
  reads : ∀ block ∈ sim.clocked, ∀ name ∈ Statement.readsAll block.body, name ∉ names
  assigned : ∀ block ∈ sim.clocked, ∀ name ∈ Statement.assignedAll block.body, name ∉ names

variable {names : List String} {first second : Simulator}

theorem Alike.contains_register {sim after : Simulator} (same : sim.Alike after) (name : String) :
    after.registers.contains name = sim.registers.contains name := by
  rw [Table.contains, Table.contains, ← Option.isSome_map, same.registers name, Option.isSome_map]

theorem Ignores.alike {sim after : Simulator} (ignores : sim.Ignores names)
    (same : sim.Alike after) : after.Ignores names where
  driven := same.drivers ▸ ignores.driven
  settled := same.settled ▸ ignores.settled
  reads := same.clocked ▸ ignores.reads
  assigned := same.clocked ▸ ignores.assigned

/-- What no item mentions is ignored by the simulator of a module. -/
theorem ignores_elaborated {module : Module}
    (unread : ∀ item ∈ module.items, ∀ name ∈ item.reads, name ∉ names)
    (unassigned : ∀ item ∈ module.items, ∀ name ∈ item.assigned, name ∉ names) :
    (elaborated module).Ignores names where
  driven name driver found read asked := by
    rcases Table.mem_of_get?_insertAll found with before | entered
    · cases before
    · obtain ⟨item, inModule, entry⟩ := List.mem_flatMap.mp entered
      exact unread item inModule read (Item.mem_reads_of_driverEntries entry read asked)
  settled name body found read asked := by
    rcases Table.mem_of_get?_insertAll found with before | entered
    · cases before
    · obtain ⟨item, inModule, entry⟩ := List.mem_flatMap.mp entered
      exact unread item inModule read ((Item.mem_of_settledEntries entry).1 read asked)
  reads block member name asked := by
    obtain ⟨item, inModule, inItem⟩ := List.mem_flatMap.mp member
    exact unread item inModule name ((Item.mem_of_clockedBlocks inItem).1 name asked)
  assigned block member name assigns := by
    obtain ⟨item, inModule, inItem⟩ := List.mem_flatMap.mp member
    exact unassigned item inModule name ((Item.mem_of_clockedBlocks inItem).2 name assigns)

namespace AgreesOutside

/-- A name outside is worth the same, to whatever depth names are followed. -/
theorem valueWithin (agrees : first.AgreesOutside names second) (ignores : first.Ignores names)
    (depth : Nat) {name : String} (outside : name ∉ names) :
    second.valueWithin depth name = first.valueWithin depth name := by
  induction depth generalizing name with
  | zero => rfl
  | succ depth ih =>
    have held : second.held? name = first.held? name := by
      rw [held?, held?, agrees.inputs, agrees.registers name outside]
    have values : second.follow (second.valueWithin depth) name =
        first.follow (second.valueWithin depth) name := by
      simp only [follow, held, agrees.arrays, agrees.drivers, agrees.settled,
        agrees.widths name outside]
    rw [valueWithin_succ, valueWithin_succ, values]
    refine first.follow_congr (fun driver _ found read member => ?_)
      fun body _ _ found read member => ?_
    · exact ih (ignores.driven name driver found read member)
    · exact ih (ignores.settled name body found read member)

theorem get (agrees : first.AgreesOutside names second) (ignores : first.Ignores names)
    {name : String} (outside : name ∉ names) : second.get name = first.get name :=
  agrees.valueWithin ignores _ outside

theorem memory (agrees : first.AgreesOutside names second) (array : String) (address : Nat) :
    second.memory array address = first.memory array address := by
  rw [Simulator.memory, Simulator.memory, agrees.arrays]

theorem updatesAll (agrees : first.AgreesOutside names second) (ignores : first.Ignores names)
    {blocks : List ClockedBlock} (own : ∀ block ∈ blocks, block ∈ first.clocked) :
    Statement.updatesAll second.environment (blocks.flatMap ClockedBlock.body) =
      Statement.updatesAll first.environment (blocks.flatMap ClockedBlock.body) := by
  refine Statement.updatesAll_congr agrees.arrays _ fun name member => ?_
  rw [Statement.readsAll_eq_flatMap, List.flatMap_assoc] at member
  obtain ⟨block, inBlocks, read⟩ := List.mem_flatMap.mp member
  rw [← Statement.readsAll_eq_flatMap] at read
  exact agrees.get ignores (ignores.reads block (own block inBlocks) name read)

private theorem contains_register (agrees : first.AgreesOutside names second) {name : String}
    (outside : name ∉ names) : second.registers.contains name = first.registers.contains name := by
  rw [Table.contains, Table.contains, agrees.registers name outside]

/-- Updates outside are carried out in both states, up to the same one. -/
theorem commit (agrees : first.AgreesOutside names second) {updates : List Update}
    (outside : ∀ update ∈ updates, update.name ∉ names) :
    (second.commit updates).1 = (first.commit updates).1 ∧
      (first.commit updates).2.AgreesOutside names (second.commit updates).2 := by
  induction updates generalizing first second with
  | nil => exact ⟨rfl, agrees⟩
  | cons update rest ih =>
    have others := fun other member => outside other (List.mem_cons_of_mem update member)
    cases update with
    | register name value =>
      have here : name ∉ names := outside _ List.mem_cons_self
      simp only [Simulator.commit, apply, agrees.contains_register here]
      cases first.registers.contains name with
      | true =>
        refine ih { agrees with registers := fun other notNamed => ?_ } others
        simp only [Table.get?_adjust, agrees.registers other notNamed]
      | false => exact ⟨rfl, agrees⟩
    | word name address value =>
      simp only [Simulator.commit, apply, Table.contains_congr agrees.arrays]
      cases first.arrays.contains name with
      | true =>
        exact ih { agrees with arrays := Table.get?_adjust_congr agrees.arrays name _ } others
      | false => exact ⟨rfl, agrees⟩

/-- Updates inside are carried out in one state, and not seen from the other. -/
theorem commit_within (agrees : first.AgreesOutside names second)
    (present : ∀ name ∈ names, second.registers.contains name = true) {updates : List Update}
    (within : ∀ update ∈ updates, update.Within names) :
    ∃ next, second.commit updates = (.ok (), next) ∧ first.AgreesOutside names next := by
  refine ⟨_, commit_eq_ok_iff.mpr ⟨fun update member => ?_, rfl⟩, ?_⟩
  · obtain ⟨name, inside, value, rfl⟩ := within update member
    exact present name inside
  · clear present
    induction updates generalizing second with
    | nil => exact agrees
    | cons update rest ih =>
      obtain ⟨name, inside, value, rfl⟩ := within update List.mem_cons_self
      refine ih { agrees with registers := fun other notNamed => ?_ } fun update member =>
        within update (List.mem_cons_of_mem _ member)
      have different : other ≠ name := fun same => notNamed (same ▸ inside)
      simp only [applied, Table.get?_adjust, different, ↓reduceIte, agrees.registers other notNamed]

theorem setInput (agrees : first.AgreesOutside names second) (name : String)
    (change : Bits → Bits) :
    (first.changed (first.setInput name change)).2.AgreesOutside names
      (second.changed (second.setInput name change)).2 := by
  have unchanged : ∀ sim : Simulator, sim.inputs.contains name = false →
      (sim.changed (sim.setInput name change)).2 = sim := by
    intro sim absent
    rw [Simulator.setInput, absent]
    simp only [Bool.false_eq_true, ↓reduceIte]
    split <;> rfl
  have contained := Table.contains_congr agrees.inputs name
  cases input : first.inputs.contains name with
  | true =>
    rw [input] at contained
    simp only [Simulator.setInput, input, contained, ↓reduceIte]
    exact { agrees with inputs := Table.get?_adjust_congr agrees.inputs name change }
  | false =>
    rw [unchanged first input, unchanged second (contained.trans input)]
    exact agrees

theorem setMemory (agrees : first.AgreesOutside names second) (name : String)
    (address value : Nat) :
    (first.changed (first.setMemory name address value)).2.AgreesOutside names
      (second.changed (second.setMemory name address value)).2 := by
  unfold Simulator.setMemory
  rw [agrees.arrays]
  split
  · exact agrees
  · split
    · exact { agrees with arrays := Table.get?_adjust_congr agrees.arrays name _ }
    · exact agrees

end AgreesOutside

theorem commit_append (sim : Simulator) (earlier later : List Update) :
    sim.commit (earlier ++ later) =
      match sim.commit earlier with
      | (.ok (), next) => next.commit later
      | failed => failed := by
  induction earlier generalizing sim with
  | nil => rfl
  | cons update rest ih =>
    simp only [List.cons_append, commit]
    cases sim.apply update with
    | ok next => exact ih next
    | error error => rfl

/-- The second state has everything that the first has, and blocks in one place among the clocked
ones that watch. -/
structure Watched (names : List String) (watchers : List ClockedBlock)
    (first second : Simulator) : Prop where
  agrees : first.AgreesOutside names second
  ignores : first.Ignores names
  present : ∀ name ∈ names, second.registers.contains name = true
  clocked : ∃ before after, first.clocked = before ++ after ∧
    second.clocked = before ++ watchers ++ after

namespace Watched

variable {watchers : List ClockedBlock}

private theorem updates (watched : first.Watched names watchers second)
    (watches : ∀ block ∈ watchers, block.Watches names second.environment)
    (selected : String → Bool) :
    (∃ early added late, first.updates selected = .ok (early ++ late) ∧
      second.updates selected = .ok (early ++ (added ++ late)) ∧
      (∀ update ∈ added, update.Within names) ∧
      ∀ update ∈ early ++ late, update.name ∉ names) ∨
    ∃ error, first.updates selected = .error error ∧ second.updates selected = .error error := by
  obtain ⟨before, after, firstBlocks, secondBlocks⟩ := watched.clocked
  -- The blocks around the watchers read nothing of theirs, so they ask for the same in both states.
  have own : ∀ list : List ClockedBlock, (∀ block ∈ list, block ∈ before ++ after) →
      Statement.updatesAll second.environment
          ((list.filter fun block => selected block.clock).flatMap ClockedBlock.body) =
        Statement.updatesAll first.environment
          ((list.filter fun block => selected block.clock).flatMap ClockedBlock.body) :=
    fun list inside => watched.agrees.updatesAll watched.ignores fun block member =>
      firstBlocks ▸ inside block (List.mem_filter.mp member).1
  have ofBefore := own before fun block => List.mem_append_left after
  have ofAfter := own after fun block => List.mem_append_right before
  obtain ⟨added, ofWatchers, within⟩ := ClockedBlock.updatesAll_of_watches
    fun block (member : block ∈ watchers.filter fun block => selected block.clock) =>
      watches block (List.mem_filter.mp member).1
  have outside : ∀ asked, first.updates selected = .ok asked →
      ∀ update ∈ asked, update.name ∉ names := by
    intro asked success update member
    have named := Statement.name_mem_assignedAll _ _ _ success update member
    rw [Statement.assignedAll_eq_flatMap, List.flatMap_assoc] at named
    obtain ⟨block, chosen, assigns⟩ := List.mem_flatMap.mp named
    rw [← Statement.assignedAll_eq_flatMap] at assigns
    exact watched.ignores.assigned block (List.mem_filter.mp chosen).1 _ assigns
  simp only [Simulator.updates, firstBlocks, secondBlocks, List.filter_append,
    List.flatMap_append, Statement.updatesAll_append, List.append_assoc, ofBefore, ofAfter,
    ofWatchers] at outside ⊢
  cases early : Statement.updatesAll first.environment
      ((before.filter fun block => selected block.clock).flatMap ClockedBlock.body) with
  | error error => exact .inr ⟨error, rfl, rfl⟩
  | ok early' =>
    cases late : Statement.updatesAll first.environment
        ((after.filter fun block => selected block.clock).flatMap ClockedBlock.body) with
    | error error => exact .inr ⟨error, rfl, rfl⟩
    | ok late' =>
      refine .inl ⟨early', added, late', rfl, rfl, within, outside _ ?_⟩
      rw [early, late]
      rfl

theorem fire (watched : first.Watched names watchers second)
    (watches : ∀ block ∈ watchers, block.Watches names second.environment)
    (selected : String → Bool) :
    (second.fire selected).1 = (first.fire selected).1 ∧
      (first.fire selected).2.AgreesOutside names (second.fire selected).2 := by
  rcases watched.updates watches selected with
    ⟨early, added, late, firstAsks, secondAsks, within, outside⟩ | ⟨error, firstFails, secondFails⟩
  · -- If an early update fails those of the watchers are not reached, and none of them ever fails.
    obtain ⟨sameEarly, middle⟩ := watched.agrees.commit fun update member =>
      outside update (List.mem_append_left late member)
    have shape := alike_commit second early
    simp only [Simulator.fire, firstAsks, secondAsks, commit_append]
    rcases firstDone : first.commit early with ⟨answer, firstNext⟩
    rcases secondDone : second.commit early with ⟨answer', secondNext⟩
    rw [firstDone, secondDone] at sameEarly middle
    rw [secondDone] at shape
    obtain rfl : answer' = answer := sameEarly
    cases answer' with
    | error error => exact ⟨rfl, middle⟩
    | ok done =>
      obtain ⟨next, committed, agrees⟩ := middle.commit_within
        (fun name inside => (shape.contains_register name).trans (watched.present name inside))
        within
      simp only [committed]
      exact agrees.commit fun update member => outside update (List.mem_append_right early member)
  · simp only [Simulator.fire, firstFails, secondFails]
    exact ⟨trivial, watched.agrees⟩

private theorem agrees_perform (watched : first.Watched names watchers second)
    (watches : ∀ block ∈ watchers, block.Watches names second.environment)
    (operation : Operation) :
    (first.perform operation).2.AgreesOutside names (second.perform operation).2 := by
  cases operation with
  | set name value => exact watched.agrees.setInput name _
  | setX name => exact watched.agrees.setInput name _
  | setMemory name address value => exact watched.agrees.setMemory name address value
  | tick =>
    obtain ⟨answers, after⟩ := watched.fire watches fun _ => true
    simp only [Simulator.perform, tick]
    generalize first.fire (fun _ => true) = outcome at answers after ⊢
    generalize second.fire (fun _ => true) = other at answers after ⊢
    obtain ⟨_, next⟩ := outcome
    obtain ⟨answer, otherNext⟩ := other
    obtain rfl := answers
    cases answer with
    | ok done => exact { after with }
    | error error => exact after
  | posedge clock =>
    simp only [Simulator.perform, posedge, Table.contains_congr watched.agrees.inputs]
    split
    · exact (watched.fire watches _).2
    · exact watched.agrees

theorem perform (watched : first.Watched names watchers second)
    (watches : ∀ block ∈ watchers, block.Watches names second.environment)
    (operation : Operation) :
    (first.perform operation).2.Watched names watchers (second.perform operation).2 where
  agrees := watched.agrees_perform watches operation
  ignores := watched.ignores.alike (alike_perform first operation)
  present name inside :=
    ((alike_perform second operation).contains_register name).trans (watched.present name inside)
  clocked := by
    rw [(alike_perform first operation).clocked, (alike_perform second operation).clocked]
    exact watched.clocked

theorem run (watched : first.Watched names watchers second)
    (watches : ∀ operations, ∀ block ∈ watchers,
      block.Watches names (second.run operations).environment) (operations : List Operation) :
    (first.run operations).Watched names watchers (second.run operations) := by
  induction operations using List.reverseRecOn with
  | nil => exact watched
  | append_singleton earlier operation ih =>
    rw [run_concat, run_concat]
    exact ih.perform (watches earlier) operation

end Watched
end Simulator
end Multiport
