import Multiport.Proofs.Simulation.Run

namespace Multiport

namespace Table

variable {Value : Type}

theorem insertAll_append (table : Table Value) (first second : List (String × Value)) :
    table.insertAll (first ++ second) = (table.insertAll first).insertAll second :=
  List.foldl_append

theorem get?_insertAll_of_forall_ne {table : Table Value} {entries : List (String × Value)}
    {name : String} (absent : ∀ entry ∈ entries, entry.1 ≠ name) :
    (table.insertAll entries).get? name = table.get? name := by
  induction entries generalizing table with
  | nil => rfl
  | cons first rest ih =>
    have other : name ≠ first.1 := (absent first List.mem_cons_self).symm
    have inserted : (table.insert first.1 first.2).get? name = table.get? name := by
      rw [get?_insert, if_neg other]
    rw [← inserted]
    exact ih fun entry member => absent entry (List.mem_cons_of_mem first member)

/-- A name is found with its value if every entry of that name has this value. -/
theorem get?_insertAll_of_mem {table : Table Value} {entries : List (String × Value)}
    {name : String} {value : Value} (member : (name, value) ∈ entries)
    (same : ∀ entry ∈ entries, entry.1 = name → entry.2 = value) :
    (table.insertAll entries).get? name = some value := by
  induction entries generalizing table with
  | nil => simp at member
  | cons first rest ih =>
    have others := fun entry inRest => same entry (List.mem_cons_of_mem first inRest)
    by_cases again : ∃ entry ∈ rest, entry.1 = name
    · obtain ⟨entry, inRest, named⟩ := again
      have found : (name, value) ∈ rest := by
        rw [← named, ← others entry inRest named]
        exact inRest
      exact ih found others
    · have last : first = (name, value) := by
        rcases List.mem_cons.mp member with here | later
        · exact here.symm
        · exact absurd ⟨(name, value), later, rfl⟩ again
      have absent : ∀ entry ∈ rest, entry.1 ≠ name := fun entry inRest named =>
        again ⟨entry, inRest, named⟩
      have kept : ((table.insert first.1 first.2).insertAll rest).get? name =
          (table.insert first.1 first.2).get? name := get?_insertAll_of_forall_ne absent
      apply kept.trans
      simp [get?_insert, last]

theorem mem_of_get?_insertAll {table : Table Value} {entries : List (String × Value)}
    {name : String} {value : Value} (found : (table.insertAll entries).get? name = some value) :
    table.get? name = some value ∨ (name, value) ∈ entries := by
  induction entries generalizing table with
  | nil => exact .inl found
  | cons first rest ih =>
    rcases ih found with inserted | later
    · rw [get?_insert] at inserted
      split at inserted
      · rename_i same
        cases inserted
        exact .inr (List.mem_cons.mpr (.inl (Prod.ext same rfl)))
      · exact .inl inserted
    · exact .inr (List.mem_cons_of_mem first later)

theorem get?_foldl_erase (table : Table Value) (names : List String) (name : String) :
    (names.foldl erase table).get? name = if name ∈ names then none else table.get? name := by
  induction names generalizing table with
  | nil => simp
  | cons first rest ih =>
    rw [List.foldl_cons, ih, get?_erase]
    by_cases here : name = first <;> by_cases later : name ∈ rest <;> simp [here, later]

end Table

namespace Declaration

/-- Whether a simulator runs the declaration. -/
def Supported (declaration : Declaration) : Prop :=
  match declaration.kind, declaration.shape.dims with
  | .net, [_] | .reg, [_] | .reg, [_, _] => True
  | _, _ => False

def widthEntries (declaration : Declaration) : List (String × Nat) :=
  match declaration.shape.dims with
  | [width] => [(declaration.name, width)]
  | _ => []

def registerEntries (declaration : Declaration) : List (String × Bits) :=
  match declaration.kind, declaration.shape.dims with
  | .reg, [width] => [(declaration.name, .x width)]
  | _, _ => []

def arrayEntries (declaration : Declaration) : List (String × WordArray) :=
  match declaration.kind, declaration.shape.dims with
  | .reg, [depth, width] => [(declaration.name, .x width depth)]
  | _, _ => []

end Declaration

namespace Item

/-- Whether a simulator runs an item that is no group. -/
def Supported : Item → Prop
  | declarations _ | group _ _ _ | always .anyChange _ => True
  | assigns driven => ∀ assign ∈ driven, ∃ name, assign.target = .ident name
  | always (.posedge clock) _ => ∃ name, clock = .ident name

/-- The values that continuous assignments give to plain names. -/
def driverEntries : Item → List (String × Expr)
  | assigns driven =>
      driven.flatMap fun assign => assign.target.name?.toList.map fun name => (name, assign.value)
  | declarations _ | always _ _ | group _ _ _ => []

/-- The names that a combinational block settles, each with the block. -/
def settledEntries : Item → List (String × List Statement)
  | always .anyChange body => (Statement.blockingNamesAll body).map fun name => (name, body)
  | declarations _ | assigns _ | always (.posedge _) _ | group _ _ _ => []

def clockedBlocks : Item → List ClockedBlock
  | always (.posedge clock) body => clock.name?.toList.map fun name => ⟨name, body⟩
  | declarations _ | assigns _ | always .anyChange _ | group _ _ _ => []

end Item

namespace Module

/-- Whether the module has a simulator. -/
def Supported (module : Module) : Prop :=
  (∀ declaration ∈ module.declarations, declaration.Supported) ∧
    ∀ item ∈ module.items, item.Supported

def names (module : Module) : List String :=
  module.ports.map Port.name ++ module.declarations.map Declaration.name

def settledEntries (module : Module) : List (String × List Statement) :=
  module.items.flatMap Item.settledEntries

def driverEntries (module : Module) : List (String × Expr) :=
  module.items.flatMap Item.driverEntries

end Module

namespace Simulator

/-- The simulator of a module, table by table. -/
def elaborated (module : Module) : Simulator where
  widths := Table.empty.insertAll
    ((module.ports.map fun port => (port.name, port.width)) ++
      module.declarations.flatMap Declaration.widthEntries)
  inputs := Table.empty.insertAll (module.inputs.map fun port => (port.name, .x port.width))
  registers := (module.settledEntries.map Prod.fst).foldl Table.erase
    (Table.empty.insertAll (module.declarations.flatMap Declaration.registerEntries))
  arrays := Table.empty.insertAll (module.declarations.flatMap Declaration.arrayEntries)
  drivers := Table.empty.insertAll module.driverEntries
  settled := Table.empty.insertAll module.settledEntries
  clocked := module.items.flatMap Item.clockedBlocks
  cycle := 0

private def declared (sim : Simulator) (declaration : Declaration) : Simulator :=
  { sim with
    widths := sim.widths.insertAll declaration.widthEntries
    registers := sim.registers.insertAll declaration.registerEntries
    arrays := sim.arrays.insertAll declaration.arrayEntries }

private def placed (sim : Simulator) (item : Item) : Simulator :=
  { sim with
    registers := (item.settledEntries.map Prod.fst).foldl Table.erase sim.registers
    drivers := sim.drivers.insertAll item.driverEntries
    settled := sim.settled.insertAll item.settledEntries
    clocked := sim.clocked ++ item.clockedBlocks }

private theorem addDeclaration_eq_ok_iff (sim : Simulator) (declaration : Declaration)
    (next : Simulator) :
    sim.addDeclaration declaration = .ok next ↔
      declaration.Supported ∧ next = sim.declared declaration := by
  obtain ⟨kind, ⟨dims⟩, name⟩ := declaration
  match kind, dims with
  | .net, [width] | .reg, [width] | .reg, [depth, width] =>
    simp [addDeclaration, declared, Declaration.Supported, Declaration.widthEntries,
      Declaration.registerEntries, Declaration.arrayEntries, Table.insertAll, eq_comm]
  | .net, [] | .reg, [] | .net, [_, _] | .net, _ :: _ :: _ :: _ | .reg, _ :: _ :: _ :: _ =>
    simp [addDeclaration, Declaration.Supported]

private theorem addAssign_eq_ok_iff (sim : Simulator) (assign : Assign) (next : Simulator) :
    sim.addAssign assign = .ok next ↔
      (∃ name, assign.target = .ident name) ∧
        next = sim.placed (.assigns [assign]) := by
  obtain ⟨target, value⟩ := assign
  cases target with
  | ident name =>
    simp [addAssign, Expr.name?, placed, Item.driverEntries, Item.settledEntries,
      Item.clockedBlocks, Table.insertAll, eq_comm]
  | number | word | paren | binary | cond => simp [addAssign, Expr.name?]

private theorem foldl_placed_assigns (driven : List Assign) (sim : Simulator) :
    driven.foldl (fun sim assign => sim.placed (.assigns [assign])) sim =
      sim.placed (.assigns driven) := by
  induction driven generalizing sim with
  | nil => simp [placed, Item.driverEntries, Item.settledEntries, Item.clockedBlocks,
      Table.insertAll]
  | cons assign rest ih =>
    rw [List.foldl_cons, ih]
    simp [placed, Item.driverEntries, Item.settledEntries, Item.clockedBlocks, Table.insertAll]

private theorem addCombinational_eq (sim : Simulator) (body : List Statement) :
    sim.addCombinational body = sim.placed (.always .anyChange body) := by
  have each : ∀ (names : List String) (sim : Simulator),
      names.foldl (fun sim name =>
        { sim with
          registers := sim.registers.erase name
          settled := sim.settled.insert name body }) sim =
      { sim with
        registers := names.foldl Table.erase sim.registers
        settled := sim.settled.insertAll (names.map fun name => (name, body)) } := by
    intro names
    induction names with
    | nil => exact fun _ => rfl
    | cons name rest ih => exact fun sim => ih _
  have names : ((Item.always .anyChange body).settledEntries.map Prod.fst) =
      Statement.blockingNamesAll body := by
    simp [Item.settledEntries, Function.comp_def]
  simp only [addCombinational, each, placed, names]
  simp [Item.settledEntries, Item.driverEntries, Item.clockedBlocks, Table.insertAll]

private theorem addItem_eq_ok_iff (sim : Simulator) (item : Item) (next : Simulator) :
    sim.addItem item = .ok next ↔ item.Supported ∧ next = sim.placed item := by
  match item with
  | .declarations declared | .group before after items =>
    have same : ∀ item : Item, item.driverEntries = [] → item.settledEntries = [] →
        item.clockedBlocks = [] → sim.placed item = sim := by
      intro item drivers settled clocked
      simp [placed, drivers, settled, clocked, Table.insertAll]
    rw [same _ rfl rfl rfl]
    simp [addItem, Item.Supported, eq_comm]
  | .assigns driven =>
    rw [addItem, foldlM_eq_ok_iff addAssign_eq_ok_iff, foldl_placed_assigns]
    rfl
  | .always .anyChange body =>
    simp [addItem, Item.Supported, addCombinational_eq, eq_comm]
  | .always (.posedge clock) body =>
    cases clock with
    | ident name =>
      simp [addItem, Item.Supported, Expr.name?, placed, Item.settledEntries, Item.driverEntries,
        Item.clockedBlocks, Table.insertAll, eq_comm]
    | number | word | paren | binary | cond => simp [addItem, Item.Supported, Expr.name?]

private theorem foldl_addPort (ports : List Port) (sim : Simulator) :
    ports.foldl addPort sim =
      { sim with
        widths := sim.widths.insertAll (ports.map fun port => (port.name, port.width))
        inputs := sim.inputs.insertAll
          ((ports.filter Port.isInput).map fun port => (port.name, .x port.width)) } := by
  induction ports generalizing sim with
  | nil => rfl
  | cons port rest ih =>
    rw [List.foldl_cons, ih]
    by_cases input : port.isInput = true <;> simp [addPort, input, Table.insertAll]

private theorem foldl_declared (declarations : List Declaration) (sim : Simulator) :
    declarations.foldl declared sim =
      { sim with
        widths := sim.widths.insertAll (declarations.flatMap Declaration.widthEntries)
        registers := sim.registers.insertAll (declarations.flatMap Declaration.registerEntries)
        arrays := sim.arrays.insertAll (declarations.flatMap Declaration.arrayEntries) } := by
  induction declarations generalizing sim with
  | nil => rfl
  | cons declaration rest ih =>
    rw [List.foldl_cons, ih]
    simp [declared, Table.insertAll_append]

private theorem foldl_placed (items : List Item) (sim : Simulator) :
    items.foldl placed sim =
      { sim with
        registers := ((items.flatMap Item.settledEntries).map Prod.fst).foldl Table.erase
          sim.registers
        drivers := sim.drivers.insertAll (items.flatMap Item.driverEntries)
        settled := sim.settled.insertAll (items.flatMap Item.settledEntries)
        clocked := sim.clocked ++ items.flatMap Item.clockedBlocks } := by
  induction items generalizing sim with
  | nil => simp [Table.insertAll]
  | cons item rest ih =>
    rw [List.foldl_cons, ih]
    simp [placed, Table.insertAll_append]

/-- A module has a simulator exactly if its declarations and items are run, and then it is the one
that the module gives table by table. -/
theorem ofModule_eq_ok_iff {module : Module} {sim : Simulator} :
    ofModule module = .ok sim ↔ module.Supported ∧ sim = elaborated module := by
  simp only [ofModule, bind_eq_ok_iff, foldlM_eq_ok_iff addDeclaration_eq_ok_iff,
    foldlM_eq_ok_iff addItem_eq_ok_iff]
  have whole : module.items.foldl placed
      (module.declarations.foldl declared (module.ports.foldl addPort empty)) =
        elaborated module := by
    rw [foldl_placed, foldl_declared, foldl_addPort]
    simp [elaborated, empty, Table.insertAll_append, Module.inputs, Module.settledEntries,
      Module.driverEntries]
  constructor
  · rintro ⟨middle, ⟨declarations, rfl⟩, items, rfl⟩
    exact ⟨⟨declarations, items⟩, whole⟩
  · rintro ⟨⟨declarations, items⟩, rfl⟩
    exact ⟨_, ⟨declarations, rfl⟩, items, whole.symm⟩

end Simulator
end Multiport
