import Multiport.Proofs.Design.Run

/-! Passes one after another. A pass treats each module by its own description and the schemas, and
changes neither the schemas nor what it does not choose. So the modules that a pass leaves are there
for the next one just as they were, in their order, and what two passes do together is what one pass
does that accepts what either of them accepts. -/
namespace Multiport

open Memory (LoweringOptions)

namespace LoweringPass

variable {pass : LoweringPass} {design before after : Design}

/-- Whether the schema of the generator of a module has the tag of the pass. -/
def tags (pass : LoweringPass) (design : Design) (blueprint : Blueprint) : Bool :=
  (design.schema? blueprint.generator).any fun schema => schema.tag == pass.options.tag

/-- A pass that is restricted to a filter chooses what has its tag and is accepted. -/
theorem chooses_withFilter (pass : LoweringPass) (design : Design) (filter : Blueprint → Bool)
    (blueprint : Blueprint) :
    (pass.withFilter filter).chooses design blueprint =
      (pass.tags design blueprint && filter blueprint) := by
  rw [chooses, tags]
  cases design.schema? blueprint.generator <;> simp [withFilter]

/-- The tags depend on the schemas of a design, and not on its modules. -/
theorem tags_congr (schemas : after.schemas = before.schemas) :
    pass.tags after = pass.tags before := by
  funext blueprint
  simp only [tags, Design.schema?, schemas]

/-- What stands under the name of a module after a pass. -/
def settle (pass : LoweringPass) (design : Design) : Definition → Definition
  | .generated blueprint =>
      if pass.chooses design blueprint then
        match lowerMemory pass.options blueprint with
        | .ok lowered => .concrete lowered
        | .error _ => .generated blueprint
      else .generated blueprint
  | .concrete module => .concrete module

theorem settle_of_lowered {blueprint : Blueprint} {module : Module}
    (chosen : pass.chooses design blueprint = true)
    (made : module.LoweredFrom pass.options blueprint) :
    pass.settle design (.generated blueprint) = .concrete module := by
  simp only [settle, if_pos chosen, lowerMemory_eq_ok_iff.mpr made]

theorem settle_of_not_chosen {module : Definition}
    (passed : module.generated?.any (pass.chooses design) = false) :
    pass.settle design module = module := by
  cases module with
  | concrete _ => rfl
  | generated blueprint =>
    have other : pass.chooses design blueprint = false := by
      simpa [Definition.generated?] using passed
    simp [settle, other]

/-- A list of modules is lowered if the generators of all are known, and those that are chosen can
be lowered by themselves. -/
theorem exists_lowerAll_iff {blueprints : List Blueprint} :
    (∃ lowered, pass.lowerAll design blueprints = .ok lowered) ↔
      ∀ blueprint ∈ blueprints, (design.schema? blueprint.generator).isSome ∧
        (pass.chooses design blueprint = true →
          ∃ module : Module, module.LoweredFrom pass.options blueprint) := by
  induction blueprints with
  | nil => simp [lowerAll]
  | cons first rest ih =>
    rw [List.forall_mem_cons, ← ih]
    simp only [lowerAll_cons_eq_ok_iff, lowerModule_eq_ok_iff]
    by_cases chosen : pass.chooses design first
    · simp only [if_pos chosen]
      constructor
      · rintro ⟨-, -, others, ⟨known, module, -, made⟩, restDone, -⟩
        exact ⟨⟨known, fun _ => ⟨module, made⟩⟩, others, restDone⟩
      · rintro ⟨⟨known, lowers⟩, others, restDone⟩
        obtain ⟨module, made⟩ := lowers chosen
        exact ⟨_, some module, others, ⟨known, module, rfl, made⟩, restDone, rfl⟩
    · simp only [if_neg chosen]
      constructor
      · rintro ⟨-, -, others, ⟨known, -⟩, restDone, -⟩
        exact ⟨⟨known, fun chosen' => absurd chosen' chosen⟩, others, restDone⟩
      · rintro ⟨⟨known, -⟩, others, restDone⟩
        exact ⟨_, none, others, ⟨known, rfl⟩, restDone, rfl⟩

/-- A pass succeeds if the generators of all modules are known, and it can lower what it chooses. -/
theorem exists_run_iff (pass : LoweringPass) (named : design.Named) :
    (∃ names after, pass.run design = (.ok names, after)) ↔
      ∀ blueprint ∈ design.blueprints, (design.schema? blueprint.generator).isSome ∧
        (pass.chooses design blueprint = true →
          ∃ module : Module, module.LoweredFrom pass.options blueprint) := by
  rw [← exists_lowerAll_iff]
  cases lowering : pass.lowerAll design design.blueprints with
  | error error => simp [run_of_lowerAll_error lowering]
  | ok lowered => simp [run_of_lowerAll named lowering]

/-- A restricted pass succeeds if, of the modules that have the tag, it can lower those that it
accepts. -/
theorem exists_run_withFilter_iff (pass : LoweringPass) (named : design.Named)
    (filter : Blueprint → Bool) :
    (∃ names after, (pass.withFilter filter).run design = (.ok names, after)) ↔
      ∀ blueprint ∈ design.blueprints, (design.schema? blueprint.generator).isSome ∧
        (pass.tags design blueprint = true → filter blueprint = true →
          ∃ module : Module, module.LoweredFrom pass.options blueprint) := by
  have each := exists_run_iff (pass.withFilter filter) named
  simp only [chooses_withFilter, Bool.and_eq_true, and_imp] at each
  exact each

/-- A pass that knows all generators and chooses nothing leaves the design as it is. -/
theorem run_of_nothing_chosen (named : design.Named)
    (known : ∀ blueprint ∈ design.blueprints, (design.schema? blueprint.generator).isSome)
    (passed : ∀ blueprint ∈ design.blueprints, pass.chooses design blueprint = false) :
    pass.run design = (.ok [], design) := by
  have nothing : design.blueprints.filter (pass.chooses design) = [] :=
    List.filter_eq_nil_iff.mpr fun blueprint member => by simp [passed blueprint member]
  have lowering : pass.lowerAll design design.blueprints = .ok [] :=
    lowerAll_eq_ok_iff.mpr ⟨known, nothing ▸ .nil⟩
  rw [run_of_lowerAll named lowering]
  rfl

/-- What is known of a pass that succeeds, in a design in which every module stands under its own
name. -/
theorem lowers_of_run (named : design.Named) {names : List String}
    (done : pass.run design = (.ok names, after)) : pass.Lowers design names after := by
  obtain ⟨lowered, lowering⟩ := exists_lowerAll_iff.mpr ((exists_run_iff pass named).mp ⟨_, _, done⟩)
  rw [run_of_lowerAll named lowering] at done
  cases done
  exact lowers_withConcrete named lowering

private theorem exists_of_mem_lowered {options : LoweringOptions} {blueprints : List Blueprint}
    {lowered : List Module}
    (made : List.Forall₂ (fun blueprint module => module.LoweredFrom options blueprint)
      blueprints lowered) :
    (∀ module ∈ lowered, ∃ blueprint ∈ blueprints, module.LoweredFrom options blueprint) ∧
      ∀ blueprint ∈ blueprints, ∃ module ∈ lowered, module.LoweredFrom options blueprint := by
  induction made with
  | nil => simp
  | cons first _ ih =>
    obtain ⟨origins, forms⟩ := ih
    constructor
    · refine List.forall_mem_cons.mpr ⟨⟨_, List.mem_cons_self, first⟩, fun module member => ?_⟩
      obtain ⟨blueprint, among, made⟩ := origins module member
      exact ⟨blueprint, List.mem_cons_of_mem _ among, made⟩
    · refine List.forall_mem_cons.mpr ⟨⟨_, List.mem_cons_self, first⟩, fun blueprint member => ?_⟩
      obtain ⟨module, among, made⟩ := forms blueprint member
      exact ⟨module, List.mem_cons_of_mem _ among, made⟩

namespace Lowers

variable {names : List String}

/-- After a pass, each name stands for what the pass makes of the module it stood for. -/
theorem module?_eq (lowers : pass.Lowers before names after) (named : before.Named)
    (name : String) : after.module? name = (before.module? name).map (pass.settle before) := by
  obtain ⟨lowered, made, entries⟩ := lowers.modules
  obtain ⟨origins, forms⟩ := exists_of_mem_lowered made
  refine Option.ext fun module => ?_
  simp only [Design.module?, Option.map_eq_some_iff, Table.get?_eq_some_iff, entries,
    List.mem_append, List.mem_filter, List.mem_map, Bool.not_eq_true']
  constructor
  · rintro (⟨member, passed⟩ | ⟨concrete, member, same⟩)
    · exact ⟨module, member, settle_of_not_chosen passed⟩
    · obtain ⟨blueprint, among, made⟩ := origins concrete member
      obtain ⟨listed, chosen⟩ := List.mem_filter.mp among
      obtain ⟨rfl, rfl⟩ := Prod.mk.inj same
      refine ⟨.generated blueprint, ?_, settle_of_lowered chosen made⟩
      rw [made.name]
      exact named.mem_blueprints_iff.mp listed
  · rintro ⟨old, member, rfl⟩
    cases passed : old.generated?.any (pass.chooses before) with
    | false =>
      rw [settle_of_not_chosen passed]
      exact .inl ⟨member, passed⟩
    | true =>
      cases old with
      | concrete _ => simp [Definition.generated?] at passed
      | generated blueprint =>
        have chosen : pass.chooses before blueprint = true := by
          simpa [Definition.generated?] using passed
        obtain rfl : name = blueprint.name := named _ member
        have listed := named.mem_blueprints_iff.mpr member
        obtain ⟨module, among, made⟩ := forms blueprint (List.mem_filter.mpr ⟨listed, chosen⟩)
        rw [settle_of_lowered chosen made]
        exact .inr ⟨module, among, by rw [made.name]⟩

/-- The modules that are not written out after a pass are those that it did not choose, in their
order. -/
theorem blueprints_eq (lowers : pass.Lowers before names after) :
    after.blueprints = before.blueprints.filter fun blueprint => !pass.chooses before blueprint := by
  obtain ⟨lowered, -, entries⟩ := lowers.modules
  have written : (lowered.map fun module => (module.name, Definition.concrete module)).filterMap
      (fun entry => entry.2.generated?) = [] := by
    simp [List.filterMap_map, Definition.generated?]
  have views : ∀ design : Design,
      design.blueprints = design.modules.entries.filterMap fun entry => entry.2.generated? := by
    intro design
    rw [Design.blueprints, Design.definitions, Table.values, List.filterMap_map]
    rfl
  rw [views, views, entries, List.filterMap_append, written, List.append_nil,
    List.filterMap_filter, List.filter_filterMap]
  refine List.filterMap_congr fun entry _ => ?_
  cases entry.2.generated? with
  | none => simp
  | some blueprint => cases chosen : pass.chooses before blueprint <;> simp [chosen, Option.filter]

end Lowers

/-- What one pass makes of a module and another one of what is left is what the pass makes of it
that accepts what either of them accepts. -/
theorem settle_settle (schemas : after.schemas = before.schemas) (first second : Blueprint → Bool)
    (module : Definition) :
    (pass.withFilter second).settle after ((pass.withFilter first).settle before module) =
      (pass.withFilter fun blueprint => first blueprint || second blueprint).settle before
        module := by
  cases module with
  | concrete module => rfl
  | generated blueprint =>
    have options : ∀ filter, (pass.withFilter filter).options = pass.options := fun _ => rfl
    simp only [settle, chooses_withFilter, options]
    cases tagged : pass.tags before blueprint <;> cases first blueprint <;>
      cases lowered : lowerMemory pass.options blueprint <;>
      simp [tags_congr schemas, tagged, lowered]

/-- A pass that accepts what either of two filters accepts does what two passes do, one with each
filter. The second of them lowers what only its own filter accepts, and the first one, run again,
lowers nothing and leaves the design as it is. -/
theorem runs_compose (reachable : design.Reachable) (pass : LoweringPass)
    (first second : Blueprint → Bool) {names : List String} {both : Design}
    (done : (pass.withFilter fun blueprint => first blueprint || second blueprint).run design =
      (.ok names, both)) :
    ∃ firstNames middle last,
      (pass.withFilter first).run design = (.ok firstNames, middle) ∧
      (pass.withFilter second).run middle =
        (.ok ((design.blueprints.filter fun blueprint =>
          pass.tags design blueprint && (second blueprint && !first blueprint)).map
            Blueprint.name), last) ∧
      (∀ name, last.module? name = both.module? name) ∧
      (pass.withFilter first).run middle = (.ok [], middle) := by
  have named := reachable.named
  have processed := (exists_run_withFilter_iff pass named _).mp ⟨_, _, done⟩
  obtain ⟨firstNames, middle, firstDone⟩ :=
    (exists_run_withFilter_iff pass named first).mpr fun blueprint member =>
      ⟨(processed blueprint member).1, fun tagged accepted =>
        (processed blueprint member).2 tagged (by simp [accepted])⟩
  have bothLowers := lowers_of_run named done
  have firstLowers := lowers_of_run named firstDone
  have middleNamed : middle.Named := by
    have kept := named.run (pass.withFilter first)
    rwa [firstDone] at kept
  have tags : pass.tags middle = pass.tags design := tags_congr firstLowers.schemas
  -- What is left for the second pass was there before the first, and not chosen by it.
  have left : ∀ blueprint ∈ middle.blueprints, blueprint ∈ design.blueprints ∧
      (pass.tags design blueprint && first blueprint) = false := by
    intro blueprint member
    rw [firstLowers.blueprints_eq, List.mem_filter, chooses_withFilter] at member
    simpa only [Bool.not_eq_true'] using member
  have known : ∀ blueprint ∈ middle.blueprints, (middle.schema? blueprint.generator).isSome := by
    intro blueprint member
    rw [Design.schema?, firstLowers.schemas]
    exact (processed blueprint (left blueprint member).1).1
  obtain ⟨secondNames, last, secondDone⟩ :=
    (exists_run_withFilter_iff pass middleNamed second).mpr fun blueprint member =>
      ⟨known blueprint member, fun tagged accepted =>
        (processed blueprint (left blueprint member).1).2 (tags ▸ tagged) (by simp [accepted])⟩
  have secondLowers := lowers_of_run middleNamed secondDone
  have chosen : secondNames = (design.blueprints.filter fun blueprint =>
      pass.tags design blueprint && (second blueprint && !first blueprint)).map
        Blueprint.name := by
    rw [secondLowers.names, firstLowers.blueprints_eq, List.filter_filter]
    refine congrArg (List.map Blueprint.name) (List.filter_congr fun blueprint _ => ?_)
    rw [chooses_withFilter, chooses_withFilter, tags]
    cases pass.tags design blueprint <;> simp
  refine ⟨firstNames, middle, last, firstDone, chosen ▸ secondDone, fun name => ?_, ?_⟩
  · rw [secondLowers.module?_eq middleNamed, firstLowers.module?_eq named,
      bothLowers.module?_eq named, Option.map_map]
    refine congrArg (fun change => Option.map change (design.module? name)) (funext fun module => ?_)
    exact settle_settle firstLowers.schemas first second module
  · refine run_of_nothing_chosen middleNamed known fun blueprint member => ?_
    rw [chooses_withFilter, tags]
    exact (left blueprint member).2

/-- Two memories, and between them a module of the other generator. -/
def twoMemories : Design :=
  (mixedDesign.addModule (.generated { sampleMemory with name := "rom" })).2

theorem runs_compose_twoMemories :
    twoMemories.Reachable ∧ ∃ both,
      (standard.withFilter fun blueprint => blueprint.name == "rom" || true).run twoMemories =
        (.ok ["ram", "rom"], both) ∧
      ∃ firstNames middle last,
        (standard.withFilter fun blueprint => blueprint.name == "rom").run twoMemories =
          (.ok firstNames, middle) ∧
        (standard.withFilter fun _ => true).run middle = (.ok ["ram"], last) ∧
        (∀ name, last.module? name = both.module? name) ∧
        (standard.withFilter fun blueprint => blueprint.name == "rom").run middle =
          (.ok [], middle) := by
  have reachable : twoMemories.Reachable :=
    .addModule _ (.addModule _ (.addModule _ reachable_sampleSchemas))
  let whole := standard.withFilter fun blueprint => blueprint.name == "rom" || true
  have answered : (whole.run twoMemories).1 = .ok ["ram", "rom"] := by decide +kernel
  have done : whole.run twoMemories = (.ok ["ram", "rom"], (whole.run twoMemories).2) :=
    Prod.ext answered rfl
  obtain ⟨firstNames, middle, last, first, second, same, again⟩ :=
    runs_compose reachable standard (fun blueprint => blueprint.name == "rom") (fun _ => true) done
  have names : (twoMemories.blueprints.filter fun blueprint =>
      standard.tags twoMemories blueprint && (true && !(blueprint.name == "rom"))).map
        Blueprint.name = ["ram"] := by decide +kernel
  rw [names] at second
  exact ⟨reachable, _, done, firstNames, middle, last, first, second, same, again⟩

end LoweringPass
end Multiport
