import Mathlib.Data.List.Forall2
import Multiport.Proofs.Draft.Building

namespace Multiport

def Handle.name? : Handle → Option String
  | .storage handle => some handle.name
  | .signal handle => handle.expr.name?

@[simp] theorem NewDeclaration.name?_handle (name : String) (new : NewDeclaration) :
    (new.handle name).name? = some name := by
  cases new <;> rfl

/-- There are as many values as ports, each of the width of the port at its place. -/
def Port.Fit (outputs : List Port) (values : List Signal) : Prop :=
  List.Forall₂ (fun port value => port.width = value.width) outputs values

/-- The assignments of values to ports, place by place, if there are any. -/
def Item.driving (outputs : List Port) (values : List Signal) : List Item :=
  let driven : List Assign :=
    (outputs.zip values).map fun pair => ⟨.ident pair.1.name, pair.2.expr⟩
  if driven.isEmpty then [] else [.assigns driven]

theorem Item.flattenAll_driving (outputs : List Port) (values : List Signal) :
    Item.flattenAll (Item.driving outputs values) = Item.driving outputs values := by
  simp only [Item.driving]
  split <;> rfl

def Item.grouped (title : String) : List Item → List Item
  | [] => []
  | items => [.group title (some ("End " ++ title)) items]

namespace DraftCall

def opens : DraftCall → Bool
  | enterSection _ => true
  | _ => false

def closes : DraftCall → Bool
  | leaveSection => true
  | _ => false

/-- The items that a call contributes to a module with the given ports, by what it is answered. -/
def contribution (ports : List Port) : DraftCall → DraftReply → List Item
  | declare _ _ new, .declared handle => handle.name?.toList.flatMap new.items
  | clocked clock body, _ => [.always (.posedge clock.expr) body]
  | combinational body, _ => [.always .anyChange body]
  | driveOutputs values, .done => Item.driving (ports.filter fun port => !port.isInput) values
  | _, _ => []

theorem stays_or_section (call : DraftCall) :
    (call.opens = false ∧ call.closes = false) ∨ (∃ title, call = enterSection title) ∨
      call = leaveSection := by
  cases call with
  | enterSection title => exact .inr (.inl ⟨title, rfl⟩)
  | leaveSection => exact .inr (.inr rfl)
  | _ => exact .inl ⟨rfl, rfl⟩

end DraftCall

namespace ModuleDraft

def put (draft : ModuleDraft) (items : List Item) : ModuleDraft :=
  match draft.sections with
  | [] => { draft with finished := draft.finished ++ items.toArray }
  | inner :: outer =>
      { draft with sections := { inner with items := inner.items ++ items.toArray } :: outer }

def withNames (draft : ModuleDraft) (names : List String) : ModuleDraft :=
  { draft with names := names }

section

variable (draft : ModuleDraft)

theorem push_eq_put (item : Item) : draft.push item = draft.put [item] := by
  obtain ⟨name, ports, finished, sections, names⟩ := draft
  cases sections <;> simp [push, put]

@[simp] theorem put_nil : draft.put [] = draft := by
  obtain ⟨name, ports, finished, sections, names⟩ := draft
  cases sections <;> simp [put]

theorem put_put (first second : List Item) :
    (draft.put first).put second = draft.put (first ++ second) := by
  obtain ⟨name, ports, finished, sections, names⟩ := draft
  cases sections <;> simp [put]

theorem put_withNames (names : List String) (items : List Item) :
    (draft.withNames names).put items = (draft.put items).withNames names := by
  obtain ⟨name, ports, finished, sections, taken⟩ := draft
  cases sections <;> rfl

@[simp] theorem ports_put (items : List Item) : (draft.put items).ports = draft.ports := by
  obtain ⟨name, ports, finished, sections, names⟩ := draft
  cases sections <;> rfl

theorem items_put (items : List Item) :
    (draft.put items).items = draft.items ++ Item.flattenAll items := by
  obtain ⟨name, ports, finished, sections, names⟩ := draft
  cases sections <;> simp [put, ModuleDraft.items, Item.flattenAll_append]

@[simp] theorem length_sections_put (items : List Item) :
    (draft.put items).sections.length = draft.sections.length := by
  obtain ⟨name, ports, finished, sections, names⟩ := draft
  cases sections <;> rfl

theorem declare_eq (scope : Scope) (wanted : String) (new : NewDeclaration) :
    ∃ fresh, draft.declare scope wanted new =
      (new.handle fresh, (draft.put (new.items fresh)).withNames (fresh :: draft.names)) := by
  refine ⟨freshName draft.names (scope.qualify wanted), ?_⟩
  rw [← put_withNames]
  cases new with
  | storage width depth | reg width =>
    simp only [declare, declareStorage, declareReg, take, push_eq_put]
    rfl
  | net value width =>
    simp only [declare, declareNet, take, push_eq_put, put_put]
    rfl

end

section

variable {draft next : ModuleDraft}

theorem driveOutputs_eq_ok_iff {values : List Signal} :
    draft.driveOutputs values = .ok next ↔
      Port.Fit draft.outputs values ∧ next = draft.put (Item.driving draft.outputs values) := by
  let driven : List Assign :=
    (draft.outputs.zip values).map fun pair => ⟨.ident pair.1.name, pair.2.expr⟩
  have added : draft.put (Item.driving draft.outputs values) =
      if driven.isEmpty then draft else draft.push (.assigns driven) := by
    simp only [Item.driving, push_eq_put]
    split
    · exact draft.put_nil
    · rfl
  rw [Port.Fit, List.forall₂_iff_zip, added]
  by_cases counted : draft.outputs.length = values.length
  · constructor
    · intro done
      simp only [driveOutputs, counted, ne_eq, not_true_eq_false, ↓reduceIte] at done
      obtain ⟨assigned, fits, rest⟩ := bind_eq_ok_iff.mp done
      obtain ⟨fitting, rfl⟩ := assignPorts_eq_ok_iff.mp fits
      exact ⟨⟨counted, fun member => fitting _ member⟩, (Except.ok.inj rest).symm⟩
    · rintro ⟨⟨-, fitting⟩, rfl⟩
      have fits : assignPorts (draft.outputs.zip values) = .ok driven :=
        assignPorts_eq_ok_iff.mpr ⟨fun pair member => fitting member, rfl⟩
      simp only [driveOutputs, counted, ne_eq, not_true_eq_false, ↓reduceIte, fits]
      rfl
  · constructor
    · intro done
      simp only [driveOutputs] at done
      rw [if_pos counted] at done
      cases done
    · exact fun fitting => absurd fitting.1.1 counted

theorem perform_driveOutputs_of_fit {values : List Signal} (fit : Port.Fit draft.outputs values) :
    draft.perform (.driveOutputs values) =
      .ok (.done, draft.put (Item.driving draft.outputs values)) := by
  rw [perform, driveOutputs_eq_ok_iff.mpr ⟨fit, rfl⟩]

theorem perform_driveOutputs_of_not_fit {values : List Signal}
    (misfit : ¬Port.Fit draft.outputs values) :
    ∃ error, draft.perform (.driveOutputs values) = .ok (.refused error, draft) := by
  cases driven : draft.driveOutputs values with
  | ok next => exact absurd (driveOutputs_eq_ok_iff.mp driven).1 misfit
  | error error => exact ⟨error, by rw [perform, driven]⟩

theorem exists_names_of_eq_put {items : List Item} (same : next = draft.put items) :
    ∃ names, next = (draft.put items).withNames names := by
  refine ⟨draft.names, ?_⟩
  obtain ⟨name, ports, finished, sections, names⟩ := draft
  rw [same]
  cases sections <;> rfl

/-- A call that neither opens nor closes a section puts what it contributes. -/
theorem perform_stays {call : DraftCall} {reply : DraftReply}
    (stays : call.opens = false ∧ call.closes = false)
    (done : draft.perform call = .ok (reply, next)) :
    ∃ names, next = (draft.put (call.contribution draft.ports reply)).withNames names := by
  cases call with
  | inputs | outputs =>
    cases done
    exact exists_names_of_eq_put draft.put_nil.symm
  | declare scope wanted new =>
    obtain ⟨fresh, declared⟩ := draft.declare_eq scope wanted new
    simp only [perform, declared] at done
    cases done
    refine ⟨fresh :: draft.names, ?_⟩
    simp [DraftCall.contribution]
  | enterSection title => cases stays.1
  | leaveSection => cases stays.2
  | clocked clock body | combinational body =>
    cases done
    exact exists_names_of_eq_put (draft.push_eq_put _)
  | driveOutputs values =>
    simp only [perform] at done
    split at done
    · rename_i after driven
      cases done
      exact exists_names_of_eq_put (driveOutputs_eq_ok_iff.mp driven).2
    · cases done
      exact exists_names_of_eq_put draft.put_nil.symm

private theorem leaveSection_eq_put {inner : OpenSection} {outer : List OpenSection}
    (opened : draft.sections = inner :: outer) :
    draft.leaveSection =
      .ok (put { draft with sections := outer } (Item.grouped inner.title inner.items.toList)) := by
  simp only [leaveSection, opened]
  split
  · rename_i empty
    have nothing : inner.items.toList = [] := by simpa using empty
    rw [nothing, Item.grouped, put_nil]
  · rename_i filled
    obtain ⟨item, items, some⟩ : ∃ item items, inner.items.toList = item :: items :=
      List.exists_cons_of_ne_nil (by simpa using filled)
    rw [push_eq_put, some, Item.grouped]
    nofun

theorem leaveSection_eq_ok_iff :
    draft.leaveSection = .ok next ↔ ∃ inner outer, draft.sections = inner :: outer ∧
      next = put { draft with sections := outer }
        (Item.grouped inner.title inner.items.toList) := by
  constructor
  · intro left
    cases opened : draft.sections with
    | nil => rw [leaveSection_eq_error_iff.mpr ⟨opened, rfl⟩] at left; cases left
    | cons inner outer =>
      rw [leaveSection_eq_put opened] at left
      exact ⟨inner, outer, rfl, (Except.ok.inj left).symm⟩
  · rintro ⟨inner, outer, opened, rfl⟩
    exact leaveSection_eq_put opened

end

end ModuleDraft
end Multiport
