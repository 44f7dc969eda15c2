import Multiport.Proofs.Logic.Resolution
import Multiport.Proofs.Simulation.Instance

/-! Unknown values are conservative. If one state of a module has known bits where another has
unknown ones, and is the same elsewhere, then whatever can be evaluated in the other can be
evaluated in it, and gives the same bits except the unknown ones. The two evaluations need not
visit the same expressions: a conditional that is undecided in one is decided in the other. -/
namespace Multiport

/-- The second array is what the first may turn out to be. -/
structure WordArray.ResolvesTo (first second : WordArray) : Prop where
  width : second.width = first.width
  words : List.Forall₂ Bits.ResolvesTo first.words.toList second.words.toList

theorem WordArray.ResolvesTo.refl (array : WordArray) : array.ResolvesTo array :=
  ⟨rfl, List.forall₂_same.mpr fun word _ => .refl word⟩

theorem WordArray.ResolvesTo.depth {first second : WordArray} (resolves : first.ResolvesTo second) :
    second.depth = first.depth :=
  resolves.words.length_eq.symm

/-- Reading respects the order: of a word at an unknown address nothing is known. -/
theorem WordArray.ResolvesTo.read {first second : WordArray} (resolves : first.ResolvesTo second)
    (uniform : second.Uniform) {address actual : Bits} (indexed : address.ResolvesTo actual) :
    (first.read address).ResolvesTo (second.read actual) := by
  cases place : address.toWord? with
  | none =>
    rw [read_of_toWord?_eq_none place]
    exact Bits.x_resolvesTo ((width_read uniform actual).trans resolves.width)
  | some index =>
    obtain rfl := indexed.eq_of_isKnown (Bits.isKnown_of_toWord?_eq_some place)
    by_cases inFirst : index < first.depth
    · have inSecond : index < second.depth := resolves.depth ▸ inFirst
      unfold WordArray.depth at inFirst inSecond
      simp only [WordArray.read, place, Option.bind_some, inFirst, inSecond, getElem?_pos,
        Option.getD_some]
      exact resolves.words.get inFirst inSecond
    · have beyond : first.depth ≤ index := Nat.le_of_not_lt inFirst
      rw [read_of_depth_le place beyond, read_of_depth_le place (resolves.depth ▸ beyond),
        resolves.width]
      exact .refl _

/-- The second environment is what the first may turn out to be. -/
structure Environment.ResolvesTo (first second : Environment) : Prop where
  arrays : ∀ name words, first.arrays name = some words →
    ∃ others, second.arrays name = some others ∧ words.ResolvesTo others ∧ others.Uniform
  value : ∀ name bits, first.value name = .ok bits →
    ∃ value, second.value name = .ok value ∧ bits.ResolvesTo value

theorem Expr.exists_eval_of_resolvesTo {first second : Environment}
    (resolves : first.ResolvesTo second) {expr : Expr} {bits : Bits}
    (evaluated : expr.eval first = .ok bits) :
    ∃ value, expr.eval second = .ok value ∧ bits.ResolvesTo value := by
  induction expr generalizing bits with
  | number own =>
    cases evaluated
    exact ⟨own, rfl, .refl own⟩
  | ident name => exact resolves.value name bits evaluated
  | word array index ih =>
    simp only [eval] at evaluated ⊢
    split at evaluated
    · cases evaluated
    · rename_i words found
      obtain ⟨address, indexed, same⟩ := bind_eq_ok_iff.mp evaluated
      cases same
      obtain ⟨others, foundOthers, arrays, uniform⟩ := resolves.arrays array words found
      obtain ⟨known, indexedKnown, addresses⟩ := ih indexed
      simp only [foundOthers, indexedKnown, ok_bind, pure_eq_ok]
      exact ⟨_, rfl, arrays.read uniform addresses⟩
  | paren inner ih => exact ih evaluated
  | binary op left right leftIh rightIh =>
    simp only [eval] at evaluated ⊢
    obtain ⟨leftBits, leftEvaluated, evaluated⟩ := bind_eq_ok_iff.mp evaluated
    obtain ⟨rightBits, rightEvaluated, evaluated⟩ := bind_eq_ok_iff.mp evaluated
    obtain ⟨leftValue, leftFound, leftResolves⟩ := leftIh leftEvaluated
    obtain ⟨rightValue, rightFound, rightResolves⟩ := rightIh rightEvaluated
    simp only [leftFound, rightFound, ok_bind]
    cases op with
    | equal =>
      cases evaluated
      exact ⟨_, rfl, leftResolves.eqArith rightResolves⟩
    | and =>
      simp only at evaluated ⊢
      split at evaluated
      · rename_i conjunction found
        cases evaluated
        obtain ⟨value, foundValue, valueResolves⟩ := leftResolves.and? rightResolves found
        simp only [foundValue, pure_eq_ok]
        exact ⟨value, rfl, valueResolves⟩
      · cases evaluated
  | cond condition onTrue onFalse conditionIh trueIh falseIh =>
    simp only [eval] at evaluated ⊢
    obtain ⟨decided, conditionEvaluated, evaluated⟩ := bind_eq_ok_iff.mp evaluated
    obtain ⟨decision, conditionFound, decides⟩ := conditionIh conditionEvaluated
    simp only [conditionFound, ok_bind]
    by_cases known : decided.isKnown = true
    · -- both evaluations take the same branch
      obtain rfl := decides.eq_of_isKnown known
      split at evaluated
      · rename_i holds
        simp only [holds, ↓reduceIte]
        exact trueIh evaluated
      · rename_i fails
        simp only [fails, known, ↓reduceIte] at evaluated ⊢
        exact falseIh evaluated
    · -- what both branches agree on may turn out to be the one that is taken
      have undecided : ¬ decided.isTrue = true := fun holds =>
        known (Bits.isKnown_of_isTrue holds)
      rw [if_neg undecided, if_neg known] at evaluated
      obtain ⟨trueBits, trueEvaluated, evaluated⟩ := bind_eq_ok_iff.mp evaluated
      obtain ⟨falseBits, falseEvaluated, evaluated⟩ := bind_eq_ok_iff.mp evaluated
      obtain ⟨trueValue, trueFound, trueResolves⟩ := trueIh trueEvaluated
      obtain ⟨falseValue, falseFound, falseResolves⟩ := falseIh falseEvaluated
      split at evaluated
      · rename_i merged found
        cases evaluated
        obtain ⟨toTrue, toFalse⟩ := Bits.merge?_resolvesTo found
        split
        · exact ⟨trueValue, trueFound, toTrue.trans trueResolves⟩
        · split
          · exact ⟨falseValue, falseFound, toFalse.trans falseResolves⟩
          · obtain ⟨value, foundValue, valueResolves⟩ := trueResolves.merge? falseResolves found
            simp only [trueFound, falseFound, ok_bind, foundValue, pure_eq_ok]
            exact ⟨value, rfl, valueResolves⟩
      · cases evaluated

namespace Simulator

/-- The second state is what the first may turn out to be: where it differs, the first holds
unknown bits. -/
structure ResolvesTo (first second : Simulator) : Prop where
  inputs : ∀ name,
    Option.Rel Bits.ResolvesTo (first.inputs.get? name) (second.inputs.get? name)
  registers : ∀ name,
    Option.Rel Bits.ResolvesTo (first.registers.get? name) (second.registers.get? name)
  arrays : ∀ name,
    Option.Rel WordArray.ResolvesTo (first.arrays.get? name) (second.arrays.get? name)

private theorem rel_refl {Value : Type} {Related : Value → Value → Prop}
    (refl : ∀ value, Related value value) (held : Option Value) : Option.Rel Related held held := by
  cases held with
  | none => exact .none
  | some value => exact .some (refl value)

private theorem rel_or {Value : Type} {Related : Value → Value → Prop}
    {first second other another : Option Value} (left : Option.Rel Related first second)
    (right : Option.Rel Related other another) :
    Option.Rel Related (first.or other) (second.or another) := by
  cases left with
  | none => exact right
  | some related => exact .some related

private theorem exists_of_rel {Value : Type} {Related : Value → Value → Prop} {value : Value}
    {first second : Option Value} (related : Option.Rel Related first second)
    (found : first = some value) : ∃ other, second = some other ∧ Related value other := by
  subst found
  cases related with
  | some holds => exact ⟨_, rfl, holds⟩

private theorem eq_none_of_rel {Value : Type} {Related : Value → Value → Prop}
    {first second : Option Value} (related : Option.Rel Related first second)
    (nothing : first = none) : second = none := by
  subst nothing
  cases related
  rfl

theorem resolvesTo_set {sim : Simulator} {name : String} {width : Nat}
    (unknown : sim.inputs.get? name = some (.x width)) (value : Nat) :
    sim.ResolvesTo (sim.perform (.set name value)).2 := by
  have input : sim.inputs.contains name = true := by simp [Table.contains, unknown]
  simp only [perform, changed, set, setInput, input, ↓reduceIte]
  refine ⟨fun other => ?_, fun _ => rel_refl .refl _, fun _ => rel_refl .refl _⟩
  rw [Table.get?_adjust]
  split
  · rename_i same
    rw [same, unknown]
    exact .some (Bits.x_resolvesTo (by simp))
  · exact rel_refl .refl _

/-- What a state holds of its own under a name respects the order. -/
theorem ResolvesTo.held? {first second : Simulator} (resolves : first.ResolvesTo second)
    (name : String) : Option.Rel Bits.ResolvesTo (first.held? name) (second.held? name) :=
  rel_or (resolves.inputs name) (resolves.registers name)

variable {module : Module} {first second : Simulator}

theorem Simulates.settled_eq_none (state : first.Simulates module)
    (unsettled : ∀ body, Item.always .anyChange body ∉ module.items) (name : String) :
    first.settled.get? name = none := by
  rw [Alike.settled state]
  apply Table.get?_insertAll_of_forall_ne
  intro entry member
  obtain ⟨item, inItems, settles⟩ := List.mem_flatMap.mp member
  match item, settles with
  | .always .anyChange body, _ => exact absurd inItems (unsettled body)

private theorem environment_resolvesTo (after : second.Simulates module)
    (resolves : first.ResolvesTo second) {values others : String → Except SimulationError Bits}
    (related : ∀ name bits, values name = .ok bits →
      ∃ value, others name = .ok value ∧ bits.ResolvesTo value) :
    Environment.ResolvesTo ⟨first.arrays.get?, values⟩ ⟨second.arrays.get?, others⟩ := by
  refine ⟨fun array words stored => ?_, related⟩
  obtain ⟨actual, storedActual, resolved⟩ := exists_of_rel (resolves.arrays array) stored
  exact ⟨actual, storedActual, resolved, after.uniform storedActual⟩

private theorem exists_valueWithin_of_resolvesTo
    (unsettled : ∀ body, Item.always .anyChange body ∉ module.items)
    (before : first.Simulates module) (after : second.Simulates module)
    (resolves : first.ResolvesTo second) (depth : Nat) (name : String) (bits : Bits)
    (found : first.valueWithin depth name = .ok bits) :
    ∃ value, second.valueWithin depth name = .ok value ∧ bits.ResolvesTo value := by
  induction depth generalizing name bits with
  | zero => cases found
  | succ depth ih =>
    have widths : second.widths = first.widths :=
      (Alike.widths after).trans (Alike.widths before).symm
    have drivers : second.drivers = first.drivers :=
      (Alike.drivers after).trans (Alike.drivers before).symm
    have environments := environment_resolvesTo after resolves ih
    have heldInBoth := resolves.held? name
    simp only [valueWithin, widths, drivers, before.settled_eq_none unsettled,
      after.settled_eq_none unsettled] at found ⊢
    cases own : first.held? name with
    | some held =>
      obtain ⟨other, ownOther, related⟩ := exists_of_rel heldInBoth own
      simp only [own, Except.ok.injEq] at found
      subst found
      exact ⟨other, by simp only [ownOther], related⟩
    | none =>
      have ownOther : second.held? name = none := eq_none_of_rel heldInBoth own
      simp only [own, ownOther] at found ⊢
      cases driver : first.drivers.get? name with
      | some driver =>
        simp only [driver] at found ⊢
        obtain ⟨bits, evaluated, same⟩ := bind_eq_ok_iff.mp found
        cases same
        obtain ⟨value, evaluatedOther, related⟩ :=
          Expr.exists_eval_of_resolvesTo environments evaluated
        simp only [evaluatedOther, ok_bind, pure_eq_ok]
        refine ⟨_, rfl, ?_⟩
        cases first.widths.get? name with
        | some width => exact related.resize width
        | none => exact related
      | none =>
        simp only [driver] at found ⊢
        cases width : first.widths.get? name with
        | some width =>
          simp only [width, Except.ok.injEq] at found ⊢
          exact ⟨_, rfl, found ▸ .refl _⟩
        | none =>
          simp only [width] at found
          cases found

/-- What an unknown bit turns out to be never changes a known bit of a value: in two states of a
module without combinational blocks, of which the second is what the first may turn out to be,
every expression and every signal that has a value in the first has in the second what this value
may turn out to be. -/
theorem known_bits_kept (unsettled : ∀ body, Item.always .anyChange body ∉ module.items)
    (before : first.Simulates module) (after : second.Simulates module)
    (resolves : first.ResolvesTo second) :
    (∀ (expr : Expr) (bits : Bits), expr.eval first.environment = .ok bits →
      ∃ value, expr.eval second.environment = .ok value ∧ bits.ResolvesTo value) ∧
    ∀ (name : String) (bits : Bits), first.get name = .ok bits →
      ∃ value, second.get name = .ok value ∧ bits.ResolvesTo value := by
  have signals : ∀ (name : String) (bits : Bits), first.get name = .ok bits →
      ∃ value, second.get name = .ok value ∧ bits.ResolvesTo value :=
    exists_valueWithin_of_resolvesTo unsettled before after resolves (maxDepth + 1)
  have environments : first.environment.ResolvesTo second.environment :=
    environment_resolvesTo after resolves signals
  exact ⟨fun expr bits => Expr.exists_eval_of_resolvesTo environments, signals⟩

/-- A module that selects a word and one of two inputs by the same bit. -/
def selection : Module where
  name := "selection"
  ports := [.input 1 "sel", .input 4 "a", .input 4 "b", .output 4 "y"]
  body := [.declarations [.net 4 "chosen", .array 4 2 "words"],
    .assigns [⟨.ident "chosen", .cond (.ident "sel") (.ident "a") (.ident "b")⟩,
      ⟨.ident "y", .binary .and (.ident "chosen") (.word "words" (.ident "sel"))⟩]]

/-- The module with everything known but the bit that selects. -/
def selectionOpen : Simulator :=
  (elaborated selection).run
    [.set "a" 5, .set "b" 7, .setMemory "words" 0 12, .setMemory "words" 1 13]

def selectionMade : Simulator := selectionOpen.run [.set "sel" 1]

/-- The bit that both choices leave at zero stays, and the others become known. -/
theorem known_bits_kept_selection :
    (∀ body, Item.always .anyChange body ∉ selection.items) ∧
    selectionOpen.Simulates selection ∧ selectionMade.Simulates selection ∧
    selectionOpen.ResolvesTo selectionMade ∧
    (selectionOpen.get "y" = .ok (.ofList [.x, .x, .x, .zero]) ∧
      selectionMade.get "y" = .ok (.ofList [.one, .zero, .one, .zero]) ∧
      (Bits.ofList [.x, .x, .x, .zero]).ResolvesTo (.ofList [.one, .zero, .one, .zero])) ∧
    ∃ value, (Expr.binary .equal (.ident "chosen") (.ident "b")).eval selectionMade.environment =
      .ok value ∧ (Bits.x 1).ResolvesTo value := by
  have unsettled : ∀ body, Item.always .anyChange body ∉ selection.items := by
    intro body member
    simp [selection, Module.items, Item.flattenAll, Item.flatten] at member
  have before : selectionOpen.Simulates selection := (simulates_elaborated selection).run _
  have after : selectionMade.Simulates selection := before.run _
  have resolves : selectionOpen.ResolvesTo selectionMade :=
    @resolvesTo_set selectionOpen "sel" 1 rfl 1
  obtain ⟨expressions, signals⟩ := known_bits_kept unsettled before after resolves
  have shown : selectionMade.get "y" = .ok (.ofList [.one, .zero, .one, .zero]) := rfl
  obtain ⟨value, found, related⟩ := signals "y" (.ofList [.x, .x, .x, .zero]) rfl
  obtain rfl := Except.ok.inj (found.symm.trans shown)
  exact ⟨unsettled, before, after, resolves, ⟨rfl, shown, related⟩, expressions _ _ rfl⟩

end Simulator
end Multiport
