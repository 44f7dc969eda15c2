import Mathlib.Data.List.Lattice
import Mathlib.Data.List.Perm.Basic
import Multiport.Proofs.Simulation.Following
import Multiport.Proofs.Simulation.Guarded
import Multiport.Proofs.Simulation.Instance

/-! Modules with the same contents in another order. Nothing in a state depends on where in the
module a declaration, a continuous assignment or a combinational block stands, or on the groups
around it, as long as each name is given by one of them; only the clocked blocks have an order.
States in which the same is found under every name then answer every request alike. -/
namespace Multiport

/-- Entries under one name have one value. -/
def Table.Consistent {Value : Type} (entries : List (String × Value)) : Prop :=
  ∀ entry ∈ entries, ∀ other ∈ entries, entry.1 = other.1 → entry.2 = other.2

namespace Table

variable {Value : Type}

theorem consistent_of_nodup {entries : List (String × Value)}
    (distinct : (entries.map Prod.fst).Nodup) : Consistent entries :=
  fun _ member _ otherMember same =>
    congrArg Prod.snd (List.inj_on_of_nodup_map distinct member otherMember same)

/-- The order in which consistent entries are inserted is not seen by looking them up. -/
theorem get?_insertAll_perm {first second : List (String × Value)} (order : second.Perm first)
    (consistent : Consistent first) (table : Table Value) :
    (table.insertAll second).get? = (table.insertAll first).get? := by
  funext name
  by_cases given : ∃ entry ∈ first, entry.1 = name
  · obtain ⟨⟨_, value⟩, member, rfl⟩ := given
    have inFirst := @get?_insertAll_of_mem _ table _ _ _ member fun entry entryMember same =>
      consistent entry entryMember _ member same
    have inSecond := @get?_insertAll_of_mem _ table _ _ _ (order.mem_iff.mpr member)
      fun entry entryMember same => consistent entry (order.mem_iff.mp entryMember) _ member same
    exact inSecond.trans inFirst.symm
  · have absent : ∀ entry ∈ first, entry.1 ≠ name := fun entry member same =>
      given ⟨entry, member, same⟩
    rw [get?_insertAll_of_forall_ne absent,
      get?_insertAll_of_forall_ne fun entry member => absent entry (order.mem_iff.mp member)]

theorem contains_congr {first second : Table Value} (same : second.get? = first.get?)
    (name : String) : second.contains name = first.contains name := by
  rw [contains, contains, same]

theorem get?_adjust_congr {first second : Table Value} (same : second.get? = first.get?)
    (key : String) (change : Value → Value) :
    (second.adjust key change).get? = (first.adjust key change).get? := by
  funext name
  rw [get?_adjust, get?_adjust, same]

end Table

namespace Item

/-- The continuous assignments of an item that is no group. -/
def driven : Item → List Assign
  | assigns driven => driven
  | declarations _ | always _ _ | group _ _ _ => []

def settling : Item → List (List Statement)
  | always .anyChange body => [body]
  | declarations _ | assigns _ | always (.posedge _) _ | group _ _ _ => []

def clocking : Item → List (Expr × List Statement)
  | always (.posedge clock) body => [(clock, body)]
  | declarations _ | assigns _ | always .anyChange _ | group _ _ _ => []

end Item

/-- The value that a continuous assignment gives to a plain name. -/
def Assign.entries (assign : Assign) : List (String × Expr) :=
  assign.target.name?.toList.map fun name => (name, assign.value)

namespace Module

def driven (module : Module) : List Assign := module.items.flatMap Item.driven

def settling (module : Module) : List (List Statement) := module.items.flatMap Item.settling

/-- The clocks and bodies of all clocked blocks in order. -/
def clocking (module : Module) : List (Expr × List Statement) :=
  module.items.flatMap Item.clocking

/-- The second module has the contents of the first, with its clocked blocks in the same order. How
declarations and assignments are spread over items, and items over groups, is free. -/
structure Rearranges (first second : Module) : Prop where
  ports : second.ports = first.ports
  declarations : second.declarations.Perm first.declarations
  driven : second.driven.Perm first.driven
  settling : second.settling.Perm first.settling
  clocking : second.clocking = first.clocking

/-- No name is driven by two continuous assignments or settled by two combinational blocks. -/
structure SingleSources (module : Module) : Prop where
  driven : (module.driverEntries.map Prod.fst).Nodup
  settled : module.settling.Pairwise fun first second =>
    (Statement.blockingNamesAll first).Disjoint (Statement.blockingNamesAll second)

/-- Items in another order, whatever groups they stand in, are a rearrangement if the clocked blocks
stay in order. -/
theorem rearranges_of_items {first second : Module} (ports : second.ports = first.ports)
    (items : second.items.Perm first.items) (clocking : second.clocking = first.clocking) :
    first.Rearranges second where
  ports := ports
  declarations := items.flatMap_right _
  driven := items.flatMap_right _
  settling := items.flatMap_right _
  clocking := clocking

private theorem flatMap_items_eq {Part Entry : Type} {coarse : Item → List Entry}
    {fine : Item → List Part} {entries : Part → List Entry}
    (each : ∀ item, coarse item = (fine item).flatMap entries) (items : List Item) :
    items.flatMap coarse = (items.flatMap fine).flatMap entries := by
  rw [List.flatMap_assoc]
  exact List.flatMap_congr fun item _ => each item

theorem driverEntries_eq (module : Module) :
    module.driverEntries = module.driven.flatMap Assign.entries :=
  flatMap_items_eq (fun item => by cases item <;> rfl) module.items

theorem settledEntries_eq (module : Module) :
    module.settledEntries = module.settling.flatMap fun body =>
      (Statement.blockingNamesAll body).map fun name => (name, body) := by
  refine flatMap_items_eq (fun item => ?_) module.items
  match item with
  | .always .anyChange body => simp [Item.settledEntries, Item.settling]
  | .declarations _ | .assigns _ | .always (.posedge _) _ | .group _ _ _ => rfl

theorem clockedBlocks_eq (module : Module) :
    module.items.flatMap Item.clockedBlocks = module.clocking.flatMap fun block =>
      block.1.name?.toList.map fun name => ⟨name, block.2⟩ := by
  refine flatMap_items_eq (fun item => ?_) module.items
  match item with
  | .always (.posedge clock) body => simp [Item.clockedBlocks, Item.clocking]
  | .declarations _ | .assigns _ | .always .anyChange _ | .group _ _ _ => rfl

/-- Whether a module has a simulator is decided one by one by what it contains. -/
theorem supported_iff (module : Module) :
    module.Supported ↔ (∀ declaration ∈ module.declarations, declaration.Supported) ∧
      (∀ assign ∈ module.driven, ∃ name, assign.target = .ident name) ∧
        ∀ block ∈ module.clocking, ∃ name, block.1 = .ident name := by
  have each : ∀ item : Item, item.Supported ↔
      (∀ assign ∈ item.driven, ∃ name, assign.target = .ident name) ∧
        ∀ block ∈ item.clocking, ∃ name, block.1 = .ident name := by
    intro item
    match item with
    | .assigns driven => simp [Item.Supported, Item.driven, Item.clocking]
    | .always (.posedge clock) body => simp [Item.Supported, Item.driven, Item.clocking]
    | .declarations _ | .always .anyChange _ | .group _ _ _ =>
      simp [Item.Supported, Item.driven, Item.clocking]
  simp only [Supported, each, driven, clocking, List.forall_mem_flatMap, forall_and]

namespace Rearranges

variable {first second : Module}

theorem supported_iff (same : first.Rearranges second) : second.Supported ↔ first.Supported := by
  simp only [Module.supported_iff, same.declarations.mem_iff, same.driven.mem_iff, same.clocking]

theorem driverEntries (same : first.Rearranges second) :
    second.driverEntries.Perm first.driverEntries := by
  simp only [Module.driverEntries_eq]
  exact same.driven.flatMap_right _

theorem settledEntries (same : first.Rearranges second) :
    second.settledEntries.Perm first.settledEntries := by
  simp only [Module.settledEntries_eq]
  exact same.settling.flatMap_right _

end Rearranges

/-- What combinational blocks settle is consistent if no name is settled by two of them. -/
theorem consistent_settledEntries {module : Module} (single : module.SingleSources) :
    Table.Consistent module.settledEntries := by
  have apart : module.settling.Pairwise fun body other => body = other ∨
      (Statement.blockingNamesAll body).Disjoint (Statement.blockingNamesAll other) :=
    single.settled.imp .inr
  have alike := apart.forall_of_forall_of_flip (fun _ _ => .inl rfl)
    (apart.imp fun either => either.imp Eq.symm List.Disjoint.symm)
  rw [settledEntries_eq]
  intro entry member other otherMember same
  obtain ⟨body, settles, assigned⟩ := List.mem_flatMap.mp member
  obtain ⟨otherBody, otherSettles, otherAssigned⟩ := List.mem_flatMap.mp otherMember
  obtain ⟨name, named, rfl⟩ := List.mem_map.mp assigned
  obtain ⟨_, otherNamed, rfl⟩ := List.mem_map.mp otherAssigned
  obtain rfl : name = _ := same
  exact (alike settles otherSettles).resolve_right fun disjoint => disjoint named otherNamed

/-- What declarations give to their own names stands under distinct names. -/
theorem keys_declared_sublist {Value : Type} {entries : Declaration → List (String × Value)}
    (own : ∀ declaration, ((entries declaration).map Prod.fst).Sublist [declaration.name])
    (declarations : List Declaration) :
    ((declarations.flatMap entries).map Prod.fst).Sublist (declarations.map Declaration.name) := by
  induction declarations with
  | nil => exact .refl []
  | cons declaration rest ih =>
    rw [List.flatMap_cons, List.map_append]
    exact (own declaration).append ih

/-- What declarations give to their own names is found alike in a rearranged module. -/
theorem Rearranges.get?_declared {first second : Module} (same : first.Rearranges second)
    (distinct : first.names.Nodup) {Value : Type} {entries : Declaration → List (String × Value)}
    (own : ∀ declaration, ((entries declaration).map Prod.fst).Sublist [declaration.name]) :
    (Table.empty.insertAll (second.declarations.flatMap entries)).get? =
      (Table.empty.insertAll (first.declarations.flatMap entries)).get? :=
  Table.get?_insertAll_perm (same.declarations.flatMap_right entries)
    (Table.consistent_of_nodup ((List.nodup_append.mp distinct).2.1.sublist
      (keys_declared_sublist own first.declarations))) .empty

end Module

namespace Declaration

theorem keys_widthEntries (declaration : Declaration) :
    (declaration.widthEntries.map Prod.fst).Sublist [declaration.name] := by
  unfold widthEntries
  split <;> simp

theorem keys_registerEntries (declaration : Declaration) :
    (declaration.registerEntries.map Prod.fst).Sublist [declaration.name] := by
  unfold registerEntries
  split <;> simp

theorem keys_arrayEntries (declaration : Declaration) :
    (declaration.arrayEntries.map Prod.fst).Sublist [declaration.name] := by
  unfold arrayEntries
  split <;> simp

end Declaration

namespace Simulator

/-- The second state has under every name what the first has, and the same clocked blocks and
count of cycles. -/
structure Matches (first second : Simulator) : Prop where
  widths : second.widths.get? = first.widths.get?
  inputs : second.inputs.get? = first.inputs.get?
  registers : second.registers.get? = first.registers.get?
  arrays : second.arrays.get? = first.arrays.get?
  drivers : second.drivers.get? = first.drivers.get?
  settled : second.settled.get? = first.settled.get?
  clocked : second.clocked = first.clocked
  cycle : second.cycle = first.cycle

/-- A rearranged module has a simulator in which the same is found under every name. -/
theorem matches_elaborated {first second : Module} (same : first.Rearranges second)
    (distinct : first.names.Nodup) (single : first.SingleSources) :
    (elaborated first).Matches (elaborated second) where
  widths := by
    have keys := (List.Sublist.refl (first.ports.map Port.name)).append
      (Module.keys_declared_sublist Declaration.keys_widthEntries first.declarations)
    refine Table.get?_insertAll_perm ?_ (Table.consistent_of_nodup ?_) .empty
    · rw [same.ports]
      exact (same.declarations.flatMap_right _).append_left _
    · rw [List.map_append, List.map_map]
      exact distinct.sublist keys
  inputs := by
    simp only [elaborated, Module.inputs, same.ports]
  registers := by
    -- Registers are what is declared less what is settled, and neither depends on an order.
    have held := same.get?_declared distinct Declaration.keys_registerEntries
    have settled := same.settledEntries.map Prod.fst
    funext name
    simp only [elaborated, Table.get?_foldl_erase, held, settled.mem_iff]
  arrays := same.get?_declared distinct Declaration.keys_arrayEntries
  drivers := Table.get?_insertAll_perm same.driverEntries
    (Table.consistent_of_nodup single.driven) .empty
  settled := Table.get?_insertAll_perm same.settledEntries
    (Module.consistent_settledEntries single) .empty
  clocked := by
    simp only [elaborated, Module.clockedBlocks_eq, same.clocking]
  cycle := rfl

variable {first second : Simulator}

namespace Matches

theorem environment (same : first.Matches second) : second.environment = first.environment := by
  refine environment_congr ?_ same.arrays same.drivers same.settled same.widths
  funext name
  rw [held?, held?, same.inputs, same.registers]

theorem get (same : first.Matches second) : second.get = first.get :=
  congrArg Environment.value same.environment

/-- Of two outcomes, the answers are the same and the states afterwards match. -/
abbrev Outcome {Answer : Type} (first second : Answer × Simulator) : Prop :=
  second.1 = first.1 ∧ first.2.Matches second.2

theorem setInput (same : first.Matches second) (name : String) (change : Bits → Bits) :
    Outcome (first.changed (first.setInput name change))
      (second.changed (second.setInput name change)) := by
  unfold Simulator.setInput
  rw [Table.contains_congr same.inputs, Table.contains_congr same.widths]
  split
  · exact ⟨rfl, { same with inputs := Table.get?_adjust_congr same.inputs name change }⟩
  · split <;> exact ⟨rfl, same⟩

theorem setMemory (same : first.Matches second) (name : String) (address value : Nat) :
    Outcome (first.changed (first.setMemory name address value))
      (second.changed (second.setMemory name address value)) := by
  unfold Simulator.setMemory
  rw [same.arrays]
  split
  · exact ⟨rfl, same⟩
  · split
    · exact ⟨rfl, { same with arrays := Table.get?_adjust_congr same.arrays name _ }⟩
    · exact ⟨rfl, same⟩

theorem commit (same : first.Matches second) (updates : List Update) :
    Outcome (first.commit updates) (second.commit updates) := by
  induction updates generalizing first second with
  | nil => exact ⟨rfl, same⟩
  | cons update rest ih =>
    cases update with
    | register name value =>
      simp only [Simulator.commit, apply, Table.contains_congr same.registers]
      cases first.registers.contains name with
      | true => exact ih { same with registers := Table.get?_adjust_congr same.registers name _ }
      | false => exact ⟨rfl, same⟩
    | word name address value =>
      simp only [Simulator.commit, apply, Table.contains_congr same.arrays]
      cases first.arrays.contains name with
      | true => exact ih { same with arrays := Table.get?_adjust_congr same.arrays name _ }
      | false => exact ⟨rfl, same⟩

theorem fire (same : first.Matches second) (selected : String → Bool) :
    Outcome (first.fire selected) (second.fire selected) := by
  simp only [Simulator.fire, updates, same.environment, same.clocked]
  split
  · exact same.commit _
  · exact ⟨rfl, same⟩

theorem perform (same : first.Matches second) (operation : Operation) :
    Outcome (first.perform operation) (second.perform operation) := by
  cases operation with
  | set name value => exact same.setInput name _
  | setX name => exact same.setInput name _
  | setMemory name address value => exact same.setMemory name address value
  | tick =>
    have fired := same.fire fun _ => true
    simp only [Simulator.perform, tick]
    generalize first.fire (fun _ => true) = outcome at fired ⊢
    generalize second.fire (fun _ => true) = other at fired ⊢
    obtain ⟨_, next⟩ := outcome
    obtain ⟨answer, otherNext⟩ := other
    obtain ⟨rfl, after⟩ := fired
    cases answer with
    | ok done => exact ⟨rfl, { after with cycle := congrArg (· + 1) after.cycle }⟩
    | error error => exact ⟨rfl, after⟩
  | posedge clock =>
    simp only [Simulator.perform, posedge, Table.contains_congr same.inputs]
    split
    · exact same.fire _
    · exact ⟨rfl, same⟩

/-- Matching states answer every request alike and match afterwards. -/
theorem reply (same : first.Matches second) (request : Request) :
    Outcome (first.reply request) (second.reply request) := by
  cases request with
  | change operation =>
    obtain ⟨answers, after⟩ := same.perform operation
    exact ⟨congrArg (Except.map fun _ => Reply.done) answers, after⟩
  | get name => exact ⟨by simp only [Simulator.reply, same.get], same⟩
  | getWord name => exact ⟨by simp only [Simulator.reply, getWord, same.get], same⟩
  | memory name address => exact ⟨by simp only [Simulator.reply, memory, same.arrays], same⟩

end Matches

/-- The state after requests, whether they succeed or fail. -/
def after (sim : Simulator) (requests : List Request) : Simulator :=
  requests.foldl (fun sim request => (sim.reply request).2) sim

/-- Matching states give the same answers in every session, and match after it. -/
theorem Matches.session (same : first.Matches second) (requests : List Request) :
    second.session requests = first.session requests ∧
      (first.after requests).Matches (second.after requests) := by
  induction requests generalizing first second with
  | nil => exact ⟨rfl, same⟩
  | cons request rest ih =>
    obtain ⟨answers, next⟩ := same.reply request
    obtain ⟨others, last⟩ := ih next
    refine ⟨?_, last⟩
    rw [Simulator.session, Simulator.session, answers, others]

/-- A rearrangement of a module is not seen in its simulation: both have a simulator or neither has,
and the two answer alike, errors included, and count the same cycles after any requests. -/
theorem rearrangement_unobserved {first second : Module} (same : first.Rearranges second)
    (distinct : first.names.Nodup) (single : first.SingleSources) :
    ((∃ sim, ofModule second = .ok sim) ↔ ∃ sim, ofModule first = .ok sim) ∧
      ∀ firstSim secondSim, ofModule first = .ok firstSim → ofModule second = .ok secondSim →
        ∀ requests, secondSim.session requests = firstSim.session requests ∧
          (secondSim.after requests).cycle = (firstSim.after requests).cycle := by
  constructor
  · simp only [ofModule_eq_ok_iff, exists_eq_right, same.supported_iff]
  · intro firstSim secondSim firstBuilt secondBuilt requests
    obtain ⟨-, rfl⟩ := ofModule_eq_ok_iff.mp firstBuilt
    obtain ⟨-, rfl⟩ := ofModule_eq_ok_iff.mp secondBuilt
    obtain ⟨answers, after⟩ := (matches_elaborated same distinct single).session requests
    exact ⟨answers, after.cycle⟩

/-- A register that two blocks update at one edge, the second after the first. -/
def relay : Module where
  name := "relay"
  ports := [.input 1 "clk", .input 2 "a", .output 2 "y"]
  body := [.declarations [.net 2 "p", .reg 2 "q", .reg 2 "h", .reg 1 "g", .array 2 2 "words"],
    .assigns [⟨.ident "y", .ident "q"⟩, ⟨.ident "p", .binary .and (.ident "a") (.ident "h")⟩],
    .always .anyChange [.blocking (.ident "h") (.ident "a")],
    .always .anyChange [.blocking (.ident "g") (.binary .equal (.ident "h") (.ident "q"))],
    .always (.posedge (.ident "clk")) [.nonblocking (.ident "q") (.constant 2 1),
      .nonblocking (.word "words" (.ident "g")) (.ident "p")],
    .always (.posedge (.ident "clk")) [.nonblocking (.ident "q") (.ident "p")]]

/-- The relay turned around: its declarations come last and in two items, its blocks and
assignments in groups. -/
def relayTurned : Module where
  name := "relay"
  ports := [.input 1 "clk", .input 2 "a", .output 2 "y"]
  body := [.always .anyChange [.blocking (.ident "g") (.binary .equal (.ident "h") (.ident "q"))],
    .group "edges" (some "end of edges") [
      .always (.posedge (.ident "clk")) [.nonblocking (.ident "q") (.constant 2 1),
        .nonblocking (.word "words" (.ident "g")) (.ident "p")],
      .group "logic" none [
        .assigns [⟨.ident "p", .binary .and (.ident "a") (.ident "h")⟩],
        .always .anyChange [.blocking (.ident "h") (.ident "a")]],
      .always (.posedge (.ident "clk")) [.nonblocking (.ident "q") (.ident "p")]],
    .declarations [.array 2 2 "words", .reg 1 "g"],
    .assigns [⟨.ident "y", .ident "q"⟩],
    .declarations [.reg 2 "h", .net 2 "p", .reg 2 "q"]]

theorem rearrangement_unobserved_relay :
    relay.Rearranges relayTurned ∧ relay.names.Nodup ∧ relay.SingleSources ∧
      ∃ first second, ofModule relay = .ok first ∧ ofModule relayTurned = .ok second ∧
        ∃ requests, requests = [.change (.set "a" 3), .get "p", .change .tick, .get "y",
          .change (.posedge "a"), .get "words", .memory "words" 2] ∧
        second.session requests = first.session requests ∧
        first.session requests = [.ok .done, .ok (.bits (.ofNat 2 3)), .ok .done,
          .ok (.bits (.ofNat 2 3)), .ok .done, .error (.unknownSignal "words"),
          .error (.addressOutOfRange "words" 2 2)] ∧
        (second.after requests).cycle = 1 := by
  have same : relay.Rearranges relayTurned :=
    ⟨rfl, by decide, by decide, .swap _ _ _, rfl⟩
  have distinct : relay.names.Nodup := by decide
  have single : relay.SingleSources :=
    ⟨by decide, List.pairwise_pair.mpr (List.disjoint_left.mpr (by decide))⟩
  have built : ofModule relay = .ok (elaborated relay) := rfl
  have builtTurned : ofModule relayTurned = .ok (elaborated relayTurned) := rfl
  obtain ⟨answers, cycles⟩ := (rearrangement_unobserved same distinct single).2 _ _ built
    builtTurned [.change (.set "a" 3), .get "p", .change .tick, .get "y", .change (.posedge "a"),
      .get "words", .memory "words" 2]
  refine ⟨same, distinct, single, _, _, built, builtTurned, _, rfl, answers, ?_, cycles.trans ?_⟩
  · decide +kernel
  · decide +kernel

end Simulator
end Multiport
