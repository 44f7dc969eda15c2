import Mathlib.Data.List.MinMax
import Multiport.Proofs.Simulation.Guarded

/-! Simulation always answers. What is evaluated calls for no more calls inside calls than a bound
that the drivers and blocks of a module determine, since names are followed to a bounded depth and
expressions and statements are finite; every other contract holds at each call. So a guarded
simulation that is given enough calls does not halt, and its answers are those of the simulator,
whatever the module and whatever is asked. -/
namespace Multiport

/-- How many calls inside calls the value of an expression takes, short of following a name. -/
def Expr.nesting : Expr → Nat
  | number _ | ident _ => 1
  | word _ address => address.nesting + 1
  | paren inner => inner.nesting + 1
  | binary _ left right => max left.nesting right.nesting + 1
  | cond condition onTrue onFalse =>
      max condition.nesting (max onTrue.nesting onFalse.nesting) + 1

theorem Expr.nesting_pos (expr : Expr) : 0 < expr.nesting := by
  cases expr <;> simp only [nesting] <;> omega

namespace Statement

mutual

/-- How many calls inside calls a statement takes, short of following a name. -/
def nesting : Statement → Nat
  | blocking target value | nonblocking target value => max target.nesting value.nesting
  | cond condition onTrue onFalse =>
      max condition.nesting (max (nestingAll onTrue) (nestingAll onFalse))

/-- How many calls inside calls statements take in order, short of following a name. -/
def nestingAll : List Statement → Nat
  | [] => 1
  | statement :: rest => max statement.nesting (nestingAll rest) + 1

end

theorem nestingAll_pos (statements : List Statement) : 0 < nestingAll statements := by
  cases statements <;> simp only [nestingAll] <;> omega

end Statement

/-- The index finds each block where a table of the settled names has it. -/
def BlockIndex.Finds (index : BlockIndex) (settled : Table (List Statement)) : Prop :=
  ∀ name, (index.places.get? name).map (fun place => index.blocks[place]?) =
    (settled.get? name).map some

namespace Simulator

/-- How many calls inside calls a driver or block takes at most, short of following a name. -/
def nesting (sim : Simulator) : Nat :=
  (sim.drivers.values.map Expr.nesting ++ sim.settled.values.map Statement.nestingAll ++
    sim.clocked.map fun block => Statement.nestingAll block.body).foldr max 0

/-- How many calls inside calls the value of a name takes that is followed to a depth. -/
def valueCalls (sim : Simulator) (remaining : Nat) : Nat := remaining * (sim.nesting + 1) + 1

/-- How many calls inside calls a request takes at most. -/
def callBound (sim : Simulator) : Nat := (maxDepth + 2) * (sim.nesting + 1)

theorem nesting_driver {sim : Simulator} {name : String} {driver : Expr}
    (found : sim.drivers.get? name = some driver) : driver.nesting ≤ sim.nesting := by
  have member : driver.nesting ∈ sim.drivers.values.map Expr.nesting :=
    List.mem_map_of_mem (Table.mem_values_of_get? found)
  exact List.le_max_of_le' 0 (List.mem_append_left _ (List.mem_append_left _ member)) le_rfl

theorem nesting_settled {sim : Simulator} {name : String} {body : List Statement}
    (found : sim.settled.get? name = some body) : Statement.nestingAll body ≤ sim.nesting := by
  have member : Statement.nestingAll body ∈ sim.settled.values.map Statement.nestingAll :=
    List.mem_map_of_mem (Table.mem_values_of_get? found)
  exact List.le_max_of_le' 0 (List.mem_append_left _ (List.mem_append_right _ member)) le_rfl

theorem nesting_clocked {sim : Simulator} {block : ClockedBlock} (member : block ∈ sim.clocked) :
    Statement.nestingAll block.body ≤ sim.nesting :=
  List.le_max_of_le' 0 (List.mem_append_right _ (List.mem_map.mpr ⟨block, member, rfl⟩)) le_rfl

end Simulator

namespace Guarded

variable {sim : Simulator} {index : BlockIndex}

private theorem sameWidth_eq {result? : Option Bits} {differ : Prop} [Decidable differ]
    (refused : result? = none ↔ differ) (error : SimulationError) :
    (if differ then throw error else sameWidth result?) =
      answered (match result? with
        | some bits => return bits
        | none => throw error) := by
  by_cases apart : differ
  · rw [if_pos apart, refused.mpr apart]
    rfl
  · rw [if_neg apart]
    cases result? with
    | some bits => rfl
    | none => exact absurd (refused.mp rfl) apart

section

variable {depth remaining base : Nat}

private theorem eval_eq
    (values : ∀ calls name, base ≤ calls →
      value sim index calls depth name = answered (sim.valueWithin remaining name))
    (calls : Nat) (own : Table Bits) (expr : Expr) (enough : base + expr.nesting ≤ calls) :
    eval sim index calls depth own expr =
      answered (expr.eval ((sim.within remaining).shadow own)) := by
  induction calls generalizing expr with
  | zero =>
    have positive := expr.nesting_pos
    omega
  | succ calls ih =>
    cases expr with
    | number bits => rfl
    | ident name =>
      simp only [eval, Expr.eval_ident, Environment.shadow]
      cases own.get? name with
      | some bits => rfl
      | none => exact values calls name (by simp only [Expr.nesting] at enough; omega)
    | word array address =>
      simp only [Expr.nesting] at enough
      simp only [eval, Expr.eval, ih address (by omega), Environment.shadow,
        Simulator.within]
      cases sim.arrays.get? array with
      | none => rfl
      | some words => exact answered_bind fun _ => rfl
    | paren inner =>
      simp only [Expr.nesting] at enough
      exact ih inner (by omega)
    | binary op left right =>
      simp only [Expr.nesting] at enough
      simp only [eval, Expr.eval, ih left (by omega), ih right (by omega)]
      refine answered_bind fun leftValue => answered_bind fun rightValue => ?_
      cases op with
      | equal => rfl
      | and => exact sameWidth_eq Bits.and?_eq_none_iff _
    | cond condition onTrue onFalse =>
      simp only [Expr.nesting] at enough
      simp only [eval, Expr.eval, ih condition (by omega), ih onTrue (by omega),
        ih onFalse (by omega)]
      refine answered_bind fun decided => ?_
      split
      · rfl
      · split
        · rfl
        · exact answered_bind fun trueValue => answered_bind fun falseValue =>
            sameWidth_eq Bits.merge?_eq_none_iff _

private theorem settleAll_eq
    (values : ∀ calls name, base ≤ calls →
      value sim index calls depth name = answered (sim.valueWithin remaining name))
    (calls : Nat) (statements : List Statement) (own : Table Bits)
    (enough : base + Statement.nestingAll statements ≤ calls) :
    settleAll sim index calls depth statements own =
      answered (Statement.settleAll (sim.within remaining) statements own) := by
  induction calls generalizing statements own with
  | zero =>
    have positive := Statement.nestingAll_pos statements
    omega
  | succ calls ih =>
    match statements with
    | [] => rfl
    | .blocking target value :: rest =>
      simp only [Statement.nestingAll, Statement.nesting] at enough
      simp only [settleAll, Statement.settleAll, Statement.settle,
        eval_eq values calls own value (by omega), bind_assoc]
      refine answered_bind fun bits => ?_
      cases target.name? with
      | some name => exact ih rest _ (by omega)
      | none => rfl
    | .nonblocking target value :: rest => rfl
    | .cond condition onTrue onFalse :: rest =>
      simp only [Statement.nestingAll, Statement.nesting] at enough
      simp only [settleAll, Statement.settleAll, Statement.settle,
        eval_eq values calls own condition (by omega), bind_assoc]
      refine answered_bind fun decided => ?_
      split
      · rw [ih onTrue own (by omega)]
        exact answered_bind fun after => ih rest after (by omega)
      · rw [ih onFalse own (by omega)]
        exact answered_bind fun after => ih rest after (by omega)

end

private theorem value_eq (finds : index.Finds sim.settled) {remaining depth calls : Nat}
    (name : String) (reached : depth + remaining = Simulator.maxDepth + 1)
    (enough : sim.valueCalls remaining ≤ calls) :
    value sim index calls depth name = answered (sim.valueWithin remaining name) := by
  induction remaining generalizing depth calls name with
  | zero =>
    obtain ⟨calls, rfl⟩ : ∃ less, calls = less + 1 := ⟨calls - 1, by
      unfold Simulator.valueCalls at enough
      omega⟩
    rw [value, if_pos (by omega)]
    rfl
  | succ remaining ih =>
    -- One step deeper costs as many calls as drivers and blocks nest, and one more.
    have deeper : ∀ calls name, sim.valueCalls remaining ≤ calls →
        value sim index calls (depth + 1) name = answered (sim.valueWithin remaining name) :=
      fun calls name enough => ih name (by omega) enough
    have next : sim.valueCalls (remaining + 1) = sim.valueCalls remaining + sim.nesting + 1 := by
      simp only [Simulator.valueCalls, Nat.succ_mul]
      omega
    obtain ⟨calls, rfl⟩ : ∃ less, calls = less + 1 := ⟨calls - 1, by omega⟩
    rw [value, if_neg (by omega), Simulator.valueWithin, Simulator.held?]
    cases (sim.inputs.get? name).or (sim.registers.get? name) with
    | some bits => rfl
    | none =>
      cases driven : sim.drivers.get? name with
      | some driver =>
        have bound := Simulator.nesting_driver driven
        simp only [eval_eq deeper calls .empty driver (by omega)]
        refine answered_bind fun bits => ?_
        cases sim.widths.get? name <;> rfl
      | none =>
        have found := finds name
        cases settles : sim.settled.get? name with
        | some body =>
          rw [settles, Option.map_some] at found
          obtain ⟨place, placed, atPlace⟩ := Option.map_eq_some_iff.mp found
          have bound := Simulator.nesting_settled settles
          simp only [placed, BlockIndex.block, atPlace, pure_bind,
            settleAll_eq deeper calls body .empty (by omega)]
          refine answered_bind fun values => ?_
          cases values.get? name <;> rfl
        | none =>
          rw [settles, Option.map_none, Option.map_eq_none_iff] at found
          simp only [found]
          cases sim.widths.get? name <;> rfl

section

variable (calls : Nat)

private theorem value_start (finds : index.Finds sim.settled)
    (enough : sim.valueCalls (Simulator.maxDepth + 1) ≤ calls) (name : String) :
    value sim index calls 0 name = answered (sim.get name) :=
  value_eq finds name (by omega) enough

private theorem eval_start (finds : index.Finds sim.settled) (expr : Expr)
    (enough : sim.valueCalls (Simulator.maxDepth + 1) + expr.nesting ≤ calls) :
    eval sim index calls 0 .empty expr = answered (expr.eval sim.environment) :=
  eval_eq (fun calls name enough => value_start calls finds enough name) calls .empty expr enough

private theorem target_eq (finds : index.Finds sim.settled) (bits : Bits) (place : Expr)
    (enough : sim.valueCalls (Simulator.maxDepth + 1) + place.nesting ≤ calls) :
    target sim index calls bits place = answered (Update.ofTarget sim.environment bits place) := by
  cases place with
  | word array address =>
    simp only [Expr.nesting] at enough
    simp only [target, Update.ofTarget, eval_start calls finds address (by omega)]
    refine answered_bind fun value => ?_
    cases value.toWord? <;> rfl
  | number | ident | paren | binary | cond => rfl

private theorem updatesAll_eq (finds : index.Finds sim.settled) (statements : List Statement)
    (enough : sim.valueCalls (Simulator.maxDepth + 1) + Statement.nestingAll statements ≤ calls) :
    updatesAll sim index calls statements =
      answered (Statement.updatesAll sim.environment statements) := by
  induction calls generalizing statements with
  | zero =>
    have positive := Statement.nestingAll_pos statements
    omega
  | succ calls ih =>
    match statements with
    | [] => rfl
    | .blocking target value :: rest => rfl
    | .nonblocking place value :: rest =>
      simp only [Statement.nestingAll, Statement.nesting] at enough
      simp only [updatesAll, Statement.updatesAll, Statement.updates, bind_assoc,
        eval_start calls finds value (by omega), target_eq calls finds _ place (by omega),
        ih rest (by omega)]
      exact answered_bind fun bits => answered_bind fun first => answered_bind fun others => rfl
    | .cond condition onTrue onFalse :: rest =>
      simp only [Statement.nestingAll, Statement.nesting] at enough
      simp only [updatesAll, Statement.updatesAll, Statement.updates, bind_assoc,
        eval_start calls finds condition (by omega), ih rest (by omega)]
      refine answered_bind fun decided => ?_
      split
      · rw [ih onTrue (by omega)]
        exact answered_bind fun first => answered_bind fun others => rfl
      · rw [ih onFalse (by omega)]
        exact answered_bind fun first => answered_bind fun others => rfl

private theorem foldlM_updatesAll (blocks : List ClockedBlock) (earlier : List Update)
    (each : ∀ block ∈ blocks, updatesAll sim index calls block.body =
      answered (Statement.updatesAll sim.environment block.body)) :
    blocks.foldlM (fun updates block => do
        return updates ++ (← updatesAll sim index calls block.body)) earlier =
      answered (do
        return earlier ++ (← Statement.updatesAll sim.environment
          (blocks.flatMap ClockedBlock.body))) := by
  induction blocks generalizing earlier with
  | nil =>
    rw [List.flatMap_nil, Statement.updatesAll, ok_bind, List.append_nil]
    rfl
  | cons block rest ih =>
    obtain ⟨first, others⟩ := List.forall_mem_cons.mp each
    simp only [List.foldlM_cons, first, List.flatMap_cons, Statement.updatesAll_append, bind_assoc,
      pure_bind, ih _ others]
    refine answered_bind fun own => ?_
    simp only [List.append_assoc]

private theorem updates_eq (finds : index.Finds sim.settled) (enough : sim.callBound ≤ calls)
    (selected : String → Bool) :
    updates sim index calls selected = answered (sim.updates selected) := by
  have split : sim.callBound = sim.valueCalls (Simulator.maxDepth + 1) + sim.nesting + 0 := by
    simp only [Simulator.callBound, Simulator.valueCalls, Nat.succ_mul]
    omega
  refine (foldlM_updatesAll calls _ [] fun block member => ?_).trans ?_
  · have bound := Simulator.nesting_clocked (List.mem_filter.mp member).1
    exact updatesAll_eq calls finds block.body (by omega)
  · simp only [List.nil_append, Simulator.updates]
    exact congrArg answered (bind_pure _)

private theorem fire_eq (finds : index.Finds sim.settled) (enough : sim.callBound ≤ calls)
    (selected : String → Bool) :
    fire sim index calls selected = .ok (sim.fire selected) := by
  rw [fire, updates_eq calls finds enough, Simulator.fire]
  cases sim.updates selected <;> rfl

theorem perform_eq (finds : index.Finds sim.settled) (enough : sim.callBound ≤ calls)
    (operation : Operation) :
    perform sim index calls operation = .ok (sim.perform operation) := by
  cases operation with
  | tick =>
    simp only [perform, fire_eq calls finds enough, Simulator.perform, Simulator.tick, ok_bind]
    rcases sim.fire fun _ => true with ⟨answer, next⟩
    cases answer <;> rfl
  | posedge clock =>
    simp only [perform, fire_eq calls finds enough, Simulator.perform, Simulator.posedge]
    split <;> rfl
  | set name value | setX name | setMemory name address value => rfl

end

section

variable {sim : Simulator} {index : BlockIndex} {calls : Nat}

private theorem reply_eq (finds : index.Finds sim.settled) (enough : sim.callBound ≤ calls)
    (request : Request) : reply sim index calls request = .ok (sim.reply request) := by
  have names : sim.valueCalls (Simulator.maxDepth + 1) ≤ calls := by
    simp only [Simulator.callBound, Simulator.valueCalls, Nat.succ_mul] at enough ⊢
    omega
  cases request with
  | change operation => rw [reply, perform_eq calls finds enough]; rfl
  | get name => rw [reply, value_start calls finds names]; rfl
  | getWord name =>
    rw [reply, value_start calls finds names, Simulator.reply, Simulator.getWord]
    cases sim.get name <;> rfl
  | memory name address => rfl

private theorem alike_reply (sim : Simulator) (request : Request) :
    sim.Alike (sim.reply request).2 := by
  cases request with
  | change operation => exact sim.alike_perform operation
  | get | getWord | memory => exact .refl sim

private theorem session_eq (finds : index.Finds sim.settled) (enough : sim.callBound ≤ calls)
    (requests : List Request) : session index calls sim requests = .ok (sim.session requests) := by
  induction requests generalizing sim with
  | nil => rfl
  | cons request rest ih =>
    have same := alike_reply sim request
    have bound : (sim.reply request).2.callBound = sim.callBound := by
      simp only [Simulator.callBound, Simulator.nesting, same.drivers, same.settled, same.clocked]
    rw [session, reply_eq finds enough, ok_bind, ih (same.settled ▸ finds) (bound ▸ enough)]
    rfl

end

private theorem addDeclaration_eq (sim : Simulator) (declaration : Declaration) :
    addDeclaration sim declaration = answered (sim.addDeclaration declaration) := by
  obtain ⟨kind, ⟨dims⟩, name⟩ := declaration
  match kind, dims with
  | .net, [width] | .reg, [width] =>
    simp only [addDeclaration, Shape.rank, Shape.width, List.foldr_cons, List.foldr_nil,
      Nat.mul_one]
    rfl
  | .reg, [depth, width] => rfl
  | .net, [] | .reg, [] | .net, [_, _] => rfl
  | .net, _ :: _ :: _ :: _ | .reg, _ :: _ :: _ :: _ =>
    simp [addDeclaration, Simulator.addDeclaration, Shape.rank]
    rfl

private theorem foldlM_answered {State Item : Type} {guarded : State → Item → Guarded State}
    {step : State → Item → Except SimulationError State}
    (each : ∀ state item, guarded state item = answered (step state item)) (items : List Item)
    (state : State) : items.foldlM guarded state = answered (items.foldlM step state) := by
  induction items generalizing state with
  | nil => rfl
  | cons first rest ih =>
    rw [List.foldlM_cons, List.foldlM_cons, each]
    exact answered_bind ih

private theorem foldlM_addItem (items : List Item) (sim : Simulator) (index : BlockIndex) :
    items.foldlM addItem (sim, index) =
      answered ((items.foldlM Simulator.addItem sim).map fun built =>
        (built, items.foldl BlockIndex.addItem index)) := by
  induction items generalizing sim index with
  | nil => rfl
  | cons first rest ih =>
    simp only [List.foldlM_cons, addItem, bind_assoc, pure_bind, ih, List.foldl_cons]
    cases sim.addItem first <;> rfl

private theorem ofModule_eq (module : Module) :
    ofModule module = answered ((Simulator.ofModule module).map fun sim =>
      (sim, BlockIndex.ofItems module.items)) := by
  simp only [ofModule, Simulator.ofModule, foldlM_answered addDeclaration_eq, foldlM_addItem]
  refine (answered_bind fun sim => rfl).trans ?_
  cases module.declarations.foldlM Simulator.addDeclaration _ <;> rfl

end Guarded

namespace BlockIndex

private theorem finds_inserts {index : BlockIndex} {settled : Table (List Statement)} {place : Nat}
    {body : List Statement} (finds : index.Finds settled)
    (atPlace : index.blocks[place]? = some body) (names : List String) :
    BlockIndex.Finds
      { index with
        places := names.foldl (fun places name => places.insert name place) index.places }
      (settled.insertAll (names.map fun name => (name, body))) := by
  induction names generalizing index settled with
  | nil => exact finds
  | cons first rest ih =>
    have inserted : BlockIndex.Finds { index with places := index.places.insert first place }
        (settled.insert first body) := by
      intro name
      simp only [Table.get?_insert]
      split
      · simp [atPlace]
      · exact finds name
    exact ih inserted atPlace

private theorem finds_add {index : BlockIndex} {settled : Table (List Statement)}
    (finds : index.Finds settled) (body : List Statement) :
    (index.add body).Finds
      (settled.insertAll ((Statement.blockingNamesAll body).map fun name => (name, body))) := by
  have grown : BlockIndex.Finds { index with blocks := index.blocks ++ [body] } settled := by
    intro name
    have before := finds name
    cases placed : index.places.get? name with
    | none => rw [← before, placed]; rfl
    | some place =>
      rw [placed, Option.map_some] at before
      obtain ⟨block, settles, atPlace⟩ := Option.map_eq_some_iff.mp before.symm
      obtain ⟨inside, -⟩ := List.getElem?_eq_some_iff.mp atPlace.symm
      simp only [settles, Option.map_some, List.getElem?_append_left inside, ← atPlace]
  exact finds_inserts grown (by simp) _

private theorem finds_foldl_addItem {index : BlockIndex} {settled : Table (List Statement)}
    (finds : index.Finds settled) (items : List Item) :
    (items.foldl addItem index).Finds (settled.insertAll (items.flatMap Item.settledEntries)) := by
  induction items generalizing index settled with
  | nil => exact finds
  | cons item rest ih =>
    rw [List.foldl_cons, List.flatMap_cons, Table.insertAll_append]
    refine ih ?_
    match item with
    | .always .anyChange body => exact finds_add finds body
    | .declarations _ | .assigns _ | .always (.posedge _) _ | .group _ _ _ => exact finds

/-- The blocks of a module are found where its simulator has them. -/
theorem finds_ofItems (module : Module) :
    (ofItems module.items).Finds (Simulator.elaborated module).settled :=
  finds_foldl_addItem (fun _ => rfl) module.items

end BlockIndex

/-- The simulator of a module is built without a halt, whatever the module, and if it is built then
enough calls answer every list of requests, as the simulator answers them. -/
theorem simulation_always_answers (module : Module) :
    (∀ error, Simulator.ofModule module = .error error →
      Guarded.ofModule module = Guarded.answered (.error error)) ∧
    ∀ start, Simulator.ofModule module = .ok start →
      ∃ index, Guarded.ofModule module = Guarded.answered (.ok (start, index)) ∧
        ∀ calls, start.callBound ≤ calls → ∀ requests,
          Guarded.session index calls start requests = .ok (start.session requests) := by
  constructor
  · intro error failed
    rw [Guarded.ofModule_eq, failed]
    rfl
  · intro start built
    refine ⟨.ofItems module.items, ?_, fun calls enough requests => ?_⟩
    · rw [Guarded.ofModule_eq, built]
      rfl
    · obtain ⟨-, rfl⟩ := Simulator.ofModule_eq_ok_iff.mp built
      exact Guarded.session_eq (BlockIndex.finds_ofItems module) enough requests

/-- A module in which two nets drive each other, widths differ, a block reads what it assigns, and
names are declared twice or not at all. -/
def tangled : Module where
  name := "tangled"
  ports := [.input 2 "a", .output 3 "y"]
  body := [.declarations [.net 1 "p", .net 1 "q", .reg 4 "a", .array 0 3 "words"],
    .assigns [⟨.ident "p", .ident "q"⟩, ⟨.ident "q", .ident "p"⟩,
      ⟨.ident "y", .cond (.ident "missing") (.ident "a") (.ident "p")⟩,
      ⟨.ident "z", .binary .and (.ident "a") (.number ⟨[.x, .z, .one]⟩)⟩],
    .always .anyChange
      [.blocking (.ident "r") (.ident "r"), .blocking (.number (.x 1)) (.ident "a")],
    .always (.posedge (.ident "p")) [.nonblocking (.paren (.ident "a")) (.ident "a")]]

theorem simulation_always_answers_tangled :
    ∃ start index, Simulator.ofModule tangled = .ok start ∧
      Guarded.ofModule tangled = Guarded.answered (.ok (start, index)) ∧
      Guarded.session index start.callBound start
        [.get "y", .get "z", .change .tick, .memory "words" 3, .get "p"] =
      .ok [.error (.unknownSignal "missing"),
        .error (.unsupported (.operandWidths
          (.binary .and (.ident "a") (.number ⟨[.x, .z, .one]⟩)))),
        .error (.unsupported (.assignment (.paren (.ident "a")))),
        .error (.addressOutOfRange "words" 3 3), (start.get "p").map .bits] := by
  have built : Simulator.ofModule tangled = .ok (.elaborated tangled) := rfl
  obtain ⟨index, same, answers⟩ := (simulation_always_answers tangled).2 _ built
  have absent : (Simulator.elaborated tangled).reply (.get "y") =
    (.error (.unknownSignal "missing"), .elaborated tangled) := rfl
  have uneven : (Simulator.elaborated tangled).reply (.get "z") =
    (.error (.unsupported (.operandWidths
      (.binary .and (.ident "a") (.number ⟨[.x, .z, .one]⟩)))), .elaborated tangled) := rfl
  have edge : (Simulator.elaborated tangled).reply (.change .tick) =
    (.error (.unsupported (.assignment (.paren (.ident "a")))), .elaborated tangled) := rfl
  have beyond : (Simulator.elaborated tangled).reply (.memory "words" 3) =
    (.error (.addressOutOfRange "words" 3 3), .elaborated tangled) := rfl
  refine ⟨_, index, built, same, (answers _ le_rfl _).trans (congrArg Except.ok ?_)⟩
  simp only [Simulator.session, absent, uneven, edge, beyond]
  simp only [Simulator.reply]

end Multiport
