import Multiport.Proofs.Memory.Edges
import Multiport.Proofs.Netlist.Unambiguous

/-! Lowered memories are legible. The names that a lowering makes are words if the names it is given
are, and what it builds from them is made of names, words of the storage, the two operators on
primary operands, and conditionals that no condition of another is. -/
namespace Multiport.Memory

open Text (isWord)

theorem isWord_of_mem_freshNames {used wanted : List String}
    (words : ∀ name ∈ wanted, isWord name = true) :
    ∀ name ∈ freshNames used wanted, isWord name = true := by
  induction wanted generalizing used with
  | nil => simp [freshNames]
  | cons name rest ih =>
    obtain ⟨word, later⟩ := List.forall_mem_cons.mp words
    exact List.forall_mem_cons.mpr ⟨isWord_freshName used word, ih later⟩

theorem PortKind.isWord_portName (kind : PortKind) (index : Nat) :
    isWord (kind.portName index) = true := by
  cases kind <;> exact Text.isWord_append_toString (by decide) index

theorem PortKind.isWord_input {kind : PortKind} {input : PortInput} (member : input ∈ kind.inputs) :
    isWord input.name = true := by
  revert input
  cases kind <;> decide

theorem isWord_of_mem_laneNames {scope : Scope} (words : scope.Words) {stages : Nat} :
    ∀ name ∈ laneNames scope stages, isWord name = true := by
  intro name member
  obtain ⟨stage, -, rfl⟩ := List.mem_map.mp member
  exact Scope.isWord_qualify words (Text.isWord_append_toString (by decide) stage)

theorem isWord_of_mem_stagedNames {kind : PortKind} {scope : Scope} (words : scope.Words)
    {stages : Nat} : ∀ name ∈ stagedNames kind scope stages, isWord name = true := by
  intro name member
  obtain ⟨input, inKind, inLane⟩ := List.mem_flatMap.mp member
  exact isWord_of_mem_laneNames
    (words.enter (PortKind.isWord_input (List.mem_of_mem_drop inKind))) name inLane

theorem isWord_of_mem_readWriteNames {scope : Scope} (words : scope.Words) {stages : Nat} :
    ∀ name ∈ readWriteNames scope stages, isWord name = true := by
  intro name member
  rcases List.mem_append.mp member with inLanes | inLogic
  · exact isWord_of_mem_stagedNames words name inLanes
  · obtain ⟨own, inNames, rfl⟩ := List.mem_map.mp inLogic
    have word : ∀ own ∈ ["wcond", "rcond", "rdata_hold"], isWord own = true := by decide
    exact Scope.isWord_qualify words (word own inNames)

theorem isWord_of_mem_kindNames {kind : PortKind} {scope : Scope} (words : scope.Words) {count : Nat}
    {wanted : Scope → List String}
    (made : ∀ inner : Scope, inner.Words → ∀ name ∈ wanted inner, isWord name = true) :
    ∀ name ∈ kindNames kind scope count wanted, isWord name = true := by
  intro name member
  obtain ⟨place, -, inPort⟩ := List.mem_flatMap.mp member
  exact made _ (words.enter (kind.isWord_portName place)) name inPort

theorem isWord_of_mem_loweringNames {scope : Scope} (words : scope.Words)
    (descriptor : Descriptor) {options : LoweringOptions}
    (storage : isWord options.storageName = true) :
    ∀ name ∈ loweringNames scope descriptor options, isWord name = true := by
  rw [loweringNames, List.forall_mem_cons, List.forall_mem_append, List.forall_mem_append]
  refine ⟨Scope.isWord_qualify words storage, ⟨?_, ?_⟩, ?_⟩
  · exact isWord_of_mem_kindNames words fun _ inner => isWord_of_mem_stagedNames inner
  · exact isWord_of_mem_kindNames words fun _ inner => isWord_of_mem_readWriteNames inner
  · exact isWord_of_mem_kindNames words fun _ inner => isWord_of_mem_stagedNames inner

/-- An expression that is a word. -/
def IsNamed (expr : Expr) : Prop := ∃ name, isWord name = true ∧ expr = .ident name

theorem IsNamed.isLegible {expr : Expr} (named : IsNamed expr) : expr.isLegible = true := by
  obtain ⟨name, word, rfl⟩ := named
  exact word

theorem IsNamed.isConditional {expr : Expr} (named : IsNamed expr) :
    expr.isConditional = false := by
  obtain ⟨name, -, rfl⟩ := named
  rfl

namespace Layout

/-- The ports and everything that is declared have words for names, and the circuits work on the
inputs. -/
structure Spelled (layout : Layout) : Prop where
  ports : ∀ port ∈ layout.ports, isWord port.name = true
  declared : ∀ name ∈ layout.storage.name :: (layout.registers ++ layout.logicNames),
    isWord name = true
  signals : layout.interface.signals = layout.inputs

namespace Spelled

variable {layout : Layout}

theorem storage (spelled : layout.Spelled) : isWord layout.storage.name = true :=
  spelled.declared _ List.mem_cons_self

theorem register (spelled : layout.Spelled) {name : String} (member : name ∈ layout.registers) :
    isWord name = true :=
  spelled.declared _ (List.mem_cons_of_mem _ (List.mem_append_left _ member))

theorem logic (spelled : layout.Spelled) {plan : ReadWritePlan} (member : plan ∈ layout.readWrite) :
    isWord plan.writes = true ∧ isWord plan.reads = true ∧ isWord plan.held = true := by
  have inLogic : ∀ name ∈ [plan.writes, plan.reads, plan.held], isWord name = true :=
    fun name own => spelled.declared _ (List.mem_cons_of_mem _ (List.mem_append_right _
      (List.mem_flatMap.mpr ⟨plan, member, own⟩)))
  simpa using inLogic

theorem signal (spelled : layout.Spelled) {signal : Signal}
    (member : signal ∈ layout.interface.signals) : IsNamed signal.expr := by
  rw [spelled.signals] at member
  obtain ⟨port, given, rfl⟩ := List.mem_map.mp member
  exact ⟨port.name, spelled.ports port (List.mem_of_mem_filter given), rfl⟩

theorem output (spelled : layout.Spelled) {circuit : Circuit} (member : circuit ∈ layout.circuits)
    {lane : Lane} (inCircuit : lane ∈ circuit.lanes) : IsNamed lane.output.expr := by
  cases last : lane.registers.getLast? with
  | none =>
    simp only [Lane.output, last, Option.map_none, Option.getD_none]
    exact spelled.signal ((signals_of_circuit member).2 lane inCircuit)
  | some register =>
    simp only [Lane.output, last, Option.map_some, Option.getD_some]
    exact ⟨register,
      spelled.register (mem_registers member inCircuit (List.mem_of_getLast? last)), rfl⟩

theorem clock (spelled : layout.Spelled) {circuit : Circuit} (member : circuit ∈ layout.circuits) :
    circuit.clock.expr.isLegible = true :=
  (spelled.signal (signals_of_circuit member).1).isLegible

theorem slot (spelled : layout.Spelled) {address : Signal} (named : IsNamed address.expr) :
    (layout.storage.slot address).isLegible = true := by
  simp [Storage.slot, Expr.isLegible, spelled.storage, named.isLegible]

theorem capture (spelled : layout.Spelled) {circuit : Circuit} (member : circuit ∈ layout.circuits)
    {lane : Lane} (inCircuit : lane ∈ circuit.lanes) {capture : String × Expr}
    (captured : capture ∈ lane.captures) :
    isWord capture.1 = true ∧ capture.2.isLegible = true := by
  refine ⟨spelled.register (mem_registers member inCircuit
    (Lane.register_of_mem_captures captured)), ?_⟩
  rcases Lane.source_of_mem_capturesFrom captured with source | ⟨register, inLane, source⟩
  · rw [source]
    exact (spelled.signal ((signals_of_circuit member).2 lane inCircuit)).isLegible
  · rw [source]
    exact spelled.register (mem_registers member inCircuit inLane)

theorem value (spelled : layout.Spelled) {value : Signal} (member : value ∈ layout.values) :
    value.expr.isLegible = true := by
  rcases List.mem_append.mp member with shown | held
  · obtain ⟨plan, inRead, rfl⟩ := List.mem_map.mp shown
    have inCircuits := mem_circuits_of_read inRead
    have enable : IsNamed plan.enable.output.expr :=
      spelled.output inCircuits (List.mem_cons_self)
    have address : IsNamed plan.address.output.expr :=
      spelled.output inCircuits (List.mem_cons_of_mem _ List.mem_cons_self)
    simp [ReadPlan.value, Expr.isLegible, Expr.x, enable.isConditional, enable.isLegible,
      spelled.slot address]
  · obtain ⟨plan, inReadWrite, rfl⟩ := List.mem_map.mp held
    exact (spelled.logic inReadWrite).2.2

theorem readWrite (spelled : layout.Spelled) {plan : ReadWritePlan}
    (member : plan ∈ layout.readWrite) :
    ∀ item ∈ plan.logic layout.storage, item.isLegible = true := by
  have inCircuits := mem_circuits_of_readWrite member
  have lanes : ∀ lane ∈ plan.lanes, IsNamed lane.output.expr :=
    fun _ inPlan => spelled.output inCircuits inPlan
  simp only [ReadWritePlan.lanes, List.forall_mem_cons] at lanes
  obtain ⟨enable, address, mode, mask, data, -⟩ := lanes
  obtain ⟨writes, reads, held⟩ := spelled.logic member
  have clock : plan.port.clock.expr.isLegible = true := spelled.clock inCircuits
  have slot := spelled.slot address
  have writeCondition : plan.writeCondition.isLegible = true :=
    Expr.isLegible_combine _ enable.isLegible
      (Expr.isLegible_combine _ mask.isLegible mode.isLegible)
  have readCondition : plan.readCondition.isLegible = true :=
    Expr.isLegible_combine _ enable.isLegible (Expr.isLegible_combine _ mode.isLegible rfl)
  have assignable := layout.storage.isAssignable_slot plan.address.output
  have name : ∀ own : String, (Expr.ident own).isAssignable = true := fun _ => rfl
  simp only [ReadWritePlan.logic, List.forall_mem_cons, List.not_mem_nil, false_imp_iff,
    implies_true, and_true, Item.isLegible, List.all_cons, List.all_nil, Bool.and_true,
    ReadWritePlan.settle, ReadWritePlan.store, Statement.allLegible, Statement.isLegible,
    name, Expr.isLegible, Expr.x, writes, reads, held, clock,
    slot, assignable, data.isLegible, writeCondition, readCondition]

theorem write (spelled : layout.Spelled) {plan : WritePlan} (member : plan ∈ layout.write) :
    (Item.always (.posedge plan.port.clock.expr) (plan.store layout.storage)).isLegible = true := by
  have inCircuits := mem_circuits_of_write member
  have lanes : ∀ lane ∈ plan.lanes, IsNamed lane.output.expr :=
    fun _ inPlan => spelled.output inCircuits inPlan
  simp only [WritePlan.lanes, List.forall_mem_cons] at lanes
  obtain ⟨enable, address, mask, data, -⟩ := lanes
  have clock : plan.port.clock.expr.isLegible = true := spelled.clock inCircuits
  have slot := spelled.slot address
  have condition : plan.condition.isLegible = true :=
    Expr.isLegible_combine _ enable.isLegible mask.isLegible
  have assignable := layout.storage.isAssignable_slot plan.address.output
  simp only [Item.isLegible, WritePlan.store, Statement.allLegible, Statement.isLegible,
    Bool.and_true, clock, slot, condition, assignable, data.isLegible]

theorem items (spelled : layout.Spelled) : ∀ item ∈ layout.items, item.isLegible = true := by
  refine layout.forall_mem_items rfl ?_ (fun _ => spelled.readWrite) (fun _ => spelled.write) ?_
  · intro circuit member lane inCircuit capture captured
    obtain ⟨register, source⟩ := spelled.capture member inCircuit captured
    refine ⟨rfl, ?_⟩
    simp [Item.isLegible, Lane.captureBody, Statement.allLegible, Statement.isLegible,
      Expr.isAssignable, Expr.isLegible, spelled.clock member, register, source]
  · simp only [Item.isLegible, driven, List.all_map, List.all_eq_true]
    intro pair member
    obtain ⟨inOutputs, inValues⟩ := List.of_mem_zip member
    have port := spelled.ports pair.1 (List.mem_of_mem_filter inOutputs)
    simp [Expr.isAssignable, Expr.isLegible, port, spelled.value inValues]

end Spelled
end Layout

/-- A memory that is lowered with words for names is laid out with words for names. -/
theorem exists_spelled_of_lower {scope : Scope} {name : String} {ports : List Port}
    {descriptor : Descriptor} {options : LoweringOptions} {module : Module}
    (lowered : lower scope name ports descriptor options = .ok module)
    (portWords : ∀ port ∈ ports, isWord port.name = true) (words : scope.Words)
    (storage : isWord options.storageName = true) :
    ∃ layout : Layout, layout.Spelled ∧ module.items = layout.items := by
  obtain ⟨valid, ⟨interface, grouped⟩, checked⟩ := checks_of_lower lowered
  obtain ⟨layout, built, again, -, -, sameItems, givenPorts, -, realizes, declared⟩ :=
    lower_of_checks scope options valid grouped checked
  obtain rfl : module = built := Except.ok.inj (lowered.symm.trans again)
  refine ⟨layout, ⟨?_, fun own member => ?_, realizes.groups.signals⟩, sameItems⟩
  · rw [givenPorts]
    exact portWords
  · rw [← layout.declared_perm.mem_iff, declared] at member
    exact isWord_of_mem_freshNames (isWord_of_mem_loweringNames words descriptor storage) own member

/-- Behaviour is told by its text. Expressions are the same if they are written the same and their
names are words, the operands of their operators are primary and none of their conditions is a
conditional; so are blocks of statements over such expressions, whatever is nested in them. Lowering
a memory emits nothing else, if the ports, the scopes and the storage are named by words. -/
theorem behaviour_told_by_text :
    (∀ first second : Expr, first.isLegible = true → second.isLegible = true →
      first.render = second.render → first = second) ∧
    (∀ first second : List Statement, Statement.allLegible first = true →
      Statement.allLegible second = true →
      Statement.renderBlock first = Statement.renderBlock second → first = second) ∧
    ∀ (scope : Scope) (name : String) (ports : List Port) (descriptor : Descriptor)
      (options : LoweringOptions) (module : Module),
      lower scope name ports descriptor options = .ok module →
      (∀ port ∈ ports, isWord port.name = true) → scope.Words →
      isWord options.storageName = true → ∀ item ∈ module.items, item.isLegible = true := by
  refine ⟨fun _ _ => Expr.render_injective, fun _ _ => Statement.renderBlock_injective, ?_⟩
  intro scope name ports descriptor options module lowered portWords words storage
  obtain ⟨layout, spelled, items⟩ := exists_spelled_of_lower lowered portWords words storage
  rw [items]
  exact spelled.items

/-- An operand in parentheses, and branches that are empty or start with an assignment to a word of
an array whose name reads like the start of a conditional. -/
def emptyBranches (condition : Expr) : List Statement :=
  [.cond (.ident "if") []
    [.cond condition [] [],
      .blocking (.word "if" (.ident "a")) (.cond (.ident "b") (.x 2) (.number ⟨[.x, .zero]⟩))]]

theorem behaviour_told_by_text_of_threePorts :
    let made : Expr := .combine .and (.ident "a") (.combine .equal (.ident "b") (.constant 1 0))
    let spelled : Expr := .binary .and (.ident "a") (.paren (.binary .equal (.ident "b")
      (.number ⟨[.zero]⟩)))
    (made.isLegible = true ∧ spelled.isLegible = true ∧ made.render = "a & (b == 1'b0)" ∧
      spelled.render = "a & (b == 1'b0)" ∧ made = spelled) ∧
    (Statement.allLegible (emptyBranches made) = true ∧
      Statement.allLegible (emptyBranches spelled) = true ∧
      Statement.renderBlock (emptyBranches made) = Statement.renderBlock (emptyBranches spelled) ∧
      emptyBranches made = emptyBranches spelled) ∧
    ∃ module, lower ⟨["bank_0"]⟩ "memory" threePorts.ports threePorts ⟨memoryTag, "Cells$"⟩ =
        .ok module ∧
      (∀ port ∈ threePorts.ports, isWord port.name = true) ∧
      ∀ item ∈ module.items, item.isLegible = true := by
  intro made spelled
  obtain ⟨expressions, blocks, emitted⟩ := behaviour_told_by_text
  have madeLegible : made.isLegible = true := by decide
  have spelledLegible : spelled.isLegible = true := by decide
  have madeText : made.render = "a & (b == 1'b0)" := by decide
  have spelledText : spelled.render = "a & (b == 1'b0)" := by decide
  have madeBlock : Statement.allLegible (emptyBranches made) = true := by decide
  have spelledBlock : Statement.allLegible (emptyBranches spelled) = true := by decide
  have portWords : ∀ port ∈ threePorts.ports, isWord port.name = true := by decide +kernel
  obtain ⟨module, lowered⟩ : ∃ module, lower ⟨["bank_0"]⟩ "memory" threePorts.ports threePorts
      ⟨memoryTag, "Cells$"⟩ = .ok module := exists_ok_of_isOk (by decide +kernel)
  exact ⟨⟨madeLegible, spelledLegible, madeText, spelledText,
      expressions made spelled madeLegible spelledLegible (madeText.trans spelledText.symm)⟩,
    ⟨madeBlock, spelledBlock, rfl, blocks _ _ madeBlock spelledBlock rfl⟩,
    module, lowered, portWords,
    emitted _ _ _ _ _ module lowered portWords (List.forall_mem_singleton.mpr (by decide))
      (by decide)⟩

end Multiport.Memory
