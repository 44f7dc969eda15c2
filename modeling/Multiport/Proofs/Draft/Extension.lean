import Multiport.Draft.Module
import Multiport.Proofs.Outcome

namespace Multiport

/-- The fresh names that wanted names get, one after another. -/
def freshNames (used : List String) : List String → List String
  | [] => []
  | wanted :: rest =>
      let fresh := freshName used wanted
      fresh :: freshNames (fresh :: used) rest

theorem freshNames_append (used first second : List String) :
    freshNames used (first ++ second) =
      freshNames used first ++ freshNames ((freshNames used first).reverse ++ used) second := by
  induction first generalizing used with
  | nil => rfl
  | cons wanted rest ih => simp [freshNames, ih]

theorem freshNames_apart (used wanted : List String) :
    (freshNames used wanted).Nodup ∧ ∀ name ∈ freshNames used wanted, name ∉ used := by
  induction wanted generalizing used with
  | nil => simp [freshNames]
  | cons name rest ih =>
    obtain ⟨distinct, apart⟩ := ih (freshName used name :: used)
    refine ⟨List.nodup_cons.mpr ⟨?_, distinct⟩, List.forall_mem_cons.mpr ⟨?_, ?_⟩⟩
    · exact fun again => apart _ again List.mem_cons_self
    · exact freshName_not_mem used name
    · exact fun other member inUsed => apart other member (List.mem_cons_of_mem _ inUsed)

theorem nodup_freshNames {used : List String} (wanted : List String) (distinct : used.Nodup) :
    (used ++ freshNames used wanted).Nodup := by
  obtain ⟨fresh, apart⟩ := freshNames_apart used wanted
  exact List.nodup_append.mpr
    ⟨distinct, fresh, fun name inUsed other member same => apart other member (same ▸ inUsed)⟩

namespace ModuleDraft

/-- The items of a draft in order, without the groups: those of the top, then those of the open
sections, outermost first. -/
def items (draft : ModuleDraft) : List Item :=
  Item.flattenAll draft.finished.toList ++
    draft.sections.reverse.flatMap fun opened => Item.flattenAll opened.items.toList

/-- One draft extends another if it stands in the same sections, has taken fresh names for the
wanted ones, and has added items that declare just those names. -/
structure Extends (before after : ModuleDraft) (wanted : List String) (added : List Item) :
    Prop where
  name : after.name = before.name
  ports : after.ports = before.ports
  sections : after.sections.map OpenSection.title = before.sections.map OpenSection.title
  names : after.names = (freshNames before.names wanted).reverse ++ before.names
  items : after.items = before.items ++ added
  declared : (added.flatMap Item.declared).map Declaration.name = freshNames before.names wanted

theorem Extends.refl (draft : ModuleDraft) : draft.Extends draft [] [] :=
  ⟨rfl, rfl, rfl, rfl, by simp, rfl⟩

theorem Extends.trans {first middle last : ModuleDraft} {wanted wanted' : List String}
    {added added' : List Item} (earlier : first.Extends middle wanted added)
    (later : middle.Extends last wanted' added') :
    first.Extends last (wanted ++ wanted') (added ++ added') where
  name := later.name.trans earlier.name
  ports := later.ports.trans earlier.ports
  sections := later.sections.trans earlier.sections
  names := by
    rw [later.names, earlier.names, freshNames_append]
    simp
  items := by rw [later.items, earlier.items, List.append_assoc]
  declared := by
    rw [List.flatMap_append, List.map_append, earlier.declared, later.declared, earlier.names,
      freshNames_append]

theorem items_push (draft : ModuleDraft) (item : Item) :
    (draft.push item).items = draft.items ++ item.flatten := by
  obtain ⟨name, ports, finished, sections, names⟩ := draft
  cases sections with
  | nil => simp [push, items, Item.flattenAll]
  | cons inner outer => simp [push, items, Item.flattenAll]

private theorem titles_push (draft : ModuleDraft) (item : Item) :
    (draft.push item).sections.map OpenSection.title = draft.sections.map OpenSection.title := by
  obtain ⟨name, ports, finished, sections, names⟩ := draft
  cases sections <;> rfl

private theorem push_fixed (draft : ModuleDraft) (item : Item) :
    (draft.push item).name = draft.name ∧ (draft.push item).ports = draft.ports ∧
      (draft.push item).names = draft.names := by
  obtain ⟨name, ports, finished, sections, names⟩ := draft
  cases sections <;> exact ⟨rfl, rfl, rfl⟩

theorem extends_push (draft : ModuleDraft) (item : Item)
    (silent : item.flatten.flatMap Item.declared = []) :
    draft.Extends (draft.push item) [] item.flatten := by
  obtain ⟨name, ports, names⟩ := draft.push_fixed item
  exact ⟨name, ports, titles_push draft item, by simpa [freshNames] using names,
    items_push draft item, by simp [silent, freshNames]⟩

theorem extends_clocked (draft : ModuleDraft) (clock : Signal) (body : List Statement) :
    draft.Extends (draft.clocked clock body) [] [.always (.posedge clock.expr) body] := by
  have pushed := draft.extends_push (.always (.posedge clock.expr) body) rfl
  simp only [Item.flatten] at pushed
  exact pushed

theorem extends_combinational (draft : ModuleDraft) (body : List Statement) :
    draft.Extends (draft.combinational body) [] [.always .anyChange body] := by
  have pushed := draft.extends_push (.always .anyChange body) rfl
  simp only [Item.flatten] at pushed
  exact pushed

private theorem extends_take_push (draft : ModuleDraft) (scope : Scope) (name : String)
    (declaration : String → Declaration)
    (named : ∀ fresh, (declaration fresh).name = fresh) :
    draft.Extends
      ((draft.take scope name).2.push (.declarations [declaration (draft.take scope name).1]))
      [scope.qualify name] [.declarations [declaration (draft.take scope name).1]] := by
  let taken := (draft.take scope name).2
  let item : Item := .declarations [declaration (draft.take scope name).1]
  obtain ⟨sameName, samePorts, sameNames⟩ := taken.push_fixed item
  refine ⟨sameName, samePorts, titles_push taken item, ?_, items_push taken item, ?_⟩
  · rw [sameNames]
    rfl
  · simp [Item.declared, named, freshNames, take]

theorem extends_declareStorage (draft : ModuleDraft) (scope : Scope) (name : String)
    (width depth : Nat) :
    ∃ fresh after, draft.declareStorage scope name width depth = (⟨fresh, width, depth⟩, after) ∧
      draft.Extends after [scope.qualify name] [.declarations [.array width depth fresh]] :=
  ⟨_, _, rfl, draft.extends_take_push scope name (.array width depth) fun _ => rfl⟩

theorem extends_declareReg (draft : ModuleDraft) (scope : Scope) (name : String) (width : Nat) :
    ∃ fresh after, draft.declareReg scope name width = (.ident fresh width, after) ∧
      draft.Extends after [scope.qualify name] [.declarations [.reg width fresh]] :=
  ⟨_, _, rfl, draft.extends_take_push scope name (.reg width) fun _ => rfl⟩

theorem extends_declareNet (draft : ModuleDraft) (scope : Scope) (name : String) (value : Expr)
    (width : Nat) :
    ∃ fresh after, draft.declareNet scope name value width = (.ident fresh width, after) ∧
      draft.Extends after [scope.qualify name]
        [.declarations [.net width fresh], .assigns [⟨.ident fresh, value⟩]] := by
  have declared := draft.extends_take_push scope name (.net width) fun _ => rfl
  have driven := extends_push
    ((draft.take scope name).2.push (.declarations [.net width (draft.take scope name).1]))
    (.assigns [⟨.ident (draft.take scope name).1, value⟩]) rfl
  simp only [Item.flatten] at driven
  exact ⟨_, _, rfl, declared.trans driven⟩

/-- A section that is left keeps its items, and takes or gives up no name. -/
theorem leaveSection_eq_ok {draft : ModuleDraft} {inner : OpenSection} {outer : List OpenSection}
    (opened : draft.sections = inner :: outer) :
    ∃ after, draft.leaveSection = .ok after ∧ after.name = draft.name ∧
      after.ports = draft.ports ∧ after.names = draft.names ∧ after.items = draft.items ∧
      after.sections.map OpenSection.title = outer.map OpenSection.title := by
  let around : ModuleDraft := { draft with sections := outer }
  have contents : draft.items = around.items ++ Item.flattenAll inner.items.toList := by
    simp [items, around, opened, List.append_assoc]
  unfold leaveSection
  rw [opened]
  simp only
  split
  · rename_i empty
    have nothing : inner.items.toList = [] := by simpa using empty
    refine ⟨_, rfl, rfl, rfl, rfl, ?_, rfl⟩
    rw [contents, nothing, Item.flattenAll, List.append_nil]
  · let item : Item := .group inner.title (some ("End " ++ inner.title)) inner.items.toList
    obtain ⟨sameName, samePorts, sameNames⟩ := around.push_fixed item
    refine ⟨_, rfl, sameName, samePorts, sameNames, ?_, titles_push around item⟩
    rw [contents, items_push around item, Item.flatten_group]

/-- What is added between entering a section and leaving it is added to the draft around it. -/
theorem leaveSection_of_extends {draft inside : ModuleDraft} {title : String}
    {wanted : List String} {added : List Item}
    (extended : (draft.enterSection title).Extends inside wanted added) :
    ∃ after, inside.leaveSection = .ok after ∧ draft.Extends after wanted added := by
  have titles := extended.sections
  simp only [enterSection, List.map_cons] at titles
  cases opened : inside.sections with
  | nil => simp [opened] at titles
  | cons inner outer =>
    rw [opened, List.map_cons, List.cons.injEq] at titles
    have contents : inside.items = draft.items ++ added := by
      rw [extended.items]
      simp [items, enterSection, Item.flattenAll]
    obtain ⟨after, left, name, ports, names, items, outside⟩ := leaveSection_eq_ok opened
    exact ⟨after, left, name.trans extended.name, ports.trans extended.ports,
      outside.trans titles.2, names.trans extended.names, items.trans contents,
      extended.declared⟩

/-- Values are assigned to ports, pair by pair, exactly if they have the widths of the ports. -/
theorem assignPorts_eq_ok_iff {pairs : List (Port × Signal)} {driven : List Assign} :
    assignPorts pairs = .ok driven ↔
      (∀ pair ∈ pairs, pair.1.width = pair.2.width) ∧
        driven = pairs.map fun pair => ⟨.ident pair.1.name, pair.2.expr⟩ := by
  induction pairs generalizing driven with
  | nil => simp [assignPorts, eq_comm]
  | cons first rest ih =>
    obtain ⟨port, value⟩ := first
    rw [List.forall_mem_cons]
    by_cases same : port.width = value.width
    · simp only [assignPorts, same, ne_eq, not_true_eq_false, ↓reduceIte, true_and]
      constructor
      · intro assigned
        obtain ⟨later, others, whole⟩ := bind_eq_ok_iff.mp assigned
        obtain ⟨fitting, rfl⟩ := ih.mp others
        exact ⟨fitting, (Except.ok.inj whole).symm⟩
      · rintro ⟨fitting, rfl⟩
        exact bind_eq_ok_iff.mpr ⟨_, ih.mpr ⟨fitting, rfl⟩, rfl⟩
    · constructor
      · intro assigned
        rw [assignPorts, if_pos same] at assigned
        cases assigned
      · exact fun fitting => absurd fitting.1.1 same

theorem finish_of_sections_eq_nil {draft : ModuleDraft} (closed : draft.sections = []) :
    ∃ module, draft.finish = .ok module ∧ module.name = draft.name ∧
      module.ports = draft.ports ∧ module.items = draft.items := by
  refine ⟨⟨draft.name, draft.ports, draft.finished.toList⟩, ?_, rfl, rfl, ?_⟩
  · simp [finish, closed]
  · simp [Module.items, items, closed]

/-- A draft that is finished stands at the top, and gives the module its ports and items. -/
theorem of_finish {draft : ModuleDraft} {module : Module} (finished : draft.finish = .ok module) :
    draft.sections = [] ∧ module.ports = draft.ports ∧ module.items = draft.items := by
  cases opened : draft.sections with
  | nil =>
    obtain ⟨same, done, -, ports, items⟩ := finish_of_sections_eq_nil opened
    cases done.symm.trans finished
    exact ⟨rfl, ports, items⟩
  | cons inner outer =>
    have stillOpen : draft.sections ≠ [] := by simp [opened]
    rw [finish_eq_error_iff.mpr ⟨stillOpen, rfl⟩] at finished
    cases finished

end ModuleDraft
end Multiport
