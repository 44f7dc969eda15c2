import Multiport.Proofs.Draft.Extension
import Multiport.Proofs.Netlist.Discipline
import Multiport.Proofs.Outcome

namespace Multiport

open Item (declaredNames)

/-- What a call can declare. -/
inductive NewDeclaration where
  | storage (width depth : Nat)
  | reg (width : Nat)
  | net (value : Expr) (width : Nat)
deriving DecidableEq, Repr

/-- What a declaration is answered with. -/
inductive Handle where
  | storage (storage : Storage)
  | signal (signal : Signal)
deriving DecidableEq, Repr

namespace NewDeclaration

def handle (name : String) : NewDeclaration → Handle
  | storage width depth => .storage ⟨name, width, depth⟩
  | reg width | net _ width => .signal (.ident name width)

def items (name : String) : NewDeclaration → List Item
  | storage width depth => [.declarations [.array width depth name]]
  | reg width => [.declarations [.reg width name]]
  | net value width => [.declarations [.net width name], .assigns [⟨.ident name, value⟩]]

@[simp] theorem declaredNames_items (name : String) (new : NewDeclaration) :
    declaredNames (new.items name) = [name] := by
  cases new <;> rfl

end NewDeclaration

/-- A call while a module is built. -/
inductive DraftCall where
  | inputs
  | outputs
  | declare (scope : Scope) (name : String) (new : NewDeclaration)
  | enterSection (title : String)
  | leaveSection
  | clocked (clock : Signal) (body : List Statement)
  | combinational (body : List Statement)
  | driveOutputs (values : List Signal)

/-- What a call is answered with. -/
inductive DraftReply where
  | signals (signals : List Signal)
  | ports (ports : List Port)
  | declared (handle : Handle)
  | done
  | refused (error : DraftError)
deriving DecidableEq, Repr

namespace ModuleDraft

def declare (draft : ModuleDraft) (scope : Scope) (name : String) :
    NewDeclaration → Handle × ModuleDraft
  | .storage width depth =>
      let (storage, next) := draft.declareStorage scope name width depth
      (.storage storage, next)
  | .reg width =>
      let (signal, next) := draft.declareReg scope name width
      (.signal signal, next)
  | .net value width =>
      let (signal, next) := draft.declareNet scope name value width
      (.signal signal, next)

/-- Answers a call. Outputs that are refused leave the draft as it is. -/
def perform (draft : ModuleDraft) : DraftCall → Except Breach (DraftReply × ModuleDraft)
  | .inputs => .ok (.signals draft.inputs, draft)
  | .outputs => .ok (.ports draft.outputs, draft)
  | .declare scope name new =>
      let (handle, next) := draft.declare scope name new
      .ok (.declared handle, next)
  | .enterSection title => .ok (.done, draft.enterSection title)
  | .leaveSection => return (.done, ← draft.leaveSection)
  | .clocked clock body => .ok (.done, draft.clocked clock body)
  | .combinational body => .ok (.done, draft.combinational body)
  | .driveOutputs values =>
      match draft.driveOutputs values with
      | .ok next => .ok (.done, next)
      | .error error => .ok (.refused error, draft)

def run (draft : ModuleDraft) : List DraftCall → Except Breach (List DraftReply × ModuleDraft)
  | [] => .ok ([], draft)
  | call :: rest => do
      let (reply, next) ← draft.perform call
      let (replies, last) ← next.run rest
      return (reply :: replies, last)

/-- A declaration takes the name that is fresh for the wanted one, and is answered with it. -/
theorem extends_declare (draft : ModuleDraft) (scope : Scope) (name : String)
    (new : NewDeclaration) :
    ∃ fresh after, draft.declare scope name new = (new.handle fresh, after) ∧
      fresh = freshName draft.names (scope.qualify name) ∧
      draft.Extends after [scope.qualify name] (new.items fresh) := by
  have named : ∀ fresh after, draft.Extends after [scope.qualify name] (new.items fresh) →
      fresh = freshName draft.names (scope.qualify name) := fun fresh after extended => by
    have declared := (NewDeclaration.declaredNames_items fresh new).symm.trans extended.declared
    exact (List.cons.inj declared).1
  cases new with
  | storage width depth =>
    obtain ⟨fresh, after, declared, extended⟩ :=
      draft.extends_declareStorage scope name width depth
    exact ⟨fresh, after, by simp only [declare, declared]; rfl, named fresh after extended,
      extended⟩
  | reg width =>
    obtain ⟨fresh, after, declared, extended⟩ := draft.extends_declareReg scope name width
    exact ⟨fresh, after, by simp only [declare, declared]; rfl, named fresh after extended,
      extended⟩
  | net value width =>
    obtain ⟨fresh, after, declared, extended⟩ := draft.extends_declareNet scope name value width
    exact ⟨fresh, after, by simp only [declare, declared]; rfl, named fresh after extended,
      extended⟩

/-- Outputs that are accepted add at most one group of assignments. -/
theorem extends_driveOutputs_of_ok {draft next : ModuleDraft} {values : List Signal}
    (driven : draft.driveOutputs values = .ok next) : ∃ added, draft.Extends next [] added := by
  simp only [driveOutputs] at driven
  split at driven
  · cases driven
  · obtain ⟨assigns, -, rest⟩ := bind_eq_ok_iff.mp driven
    rw [pure_eq_ok, Except.ok.injEq] at rest
    split at rest
    · exact ⟨[], rest ▸ .refl draft⟩
    · subst rest
      exact ⟨_, draft.extends_push (.assigns assigns) rfl⟩

/-- The names taken by a draft are those of its ports and those of its declarations, and no
declaration has the name of a port or of another declaration. -/
structure Accounts (draft : ModuleDraft) (ports : List Port) : Prop where
  given : draft.ports = ports
  names : draft.names = (declaredNames draft.items).reverse ++ ports.map Port.name
  distinct : (declaredNames draft.items).Nodup
  apart : ∀ name ∈ declaredNames draft.items, name ∉ ports.map Port.name

theorem accounts_start (name : String) (ports : List Port) : (start name ports).Accounts ports :=
  ⟨rfl, rfl, List.nodup_nil, fun _ member => absurd member List.not_mem_nil⟩

namespace Accounts

variable {draft next : ModuleDraft} {ports : List Port}

theorem mem_names (accounts : draft.Accounts ports) {name : String} :
    name ∈ draft.names ↔ name ∈ ports.map Port.name ++ declaredNames draft.items := by
  rw [accounts.names, List.mem_append, List.mem_append, List.mem_reverse, or_comm]

theorem of_extends (accounts : draft.Accounts ports) {wanted : List String}
    {added : List Item} (extended : draft.Extends next wanted added) : next.Accounts ports := by
  obtain ⟨fresh, unused⟩ := freshNames_apart draft.names wanted
  have declared : declaredNames next.items =
      declaredNames draft.items ++ freshNames draft.names wanted := by
    rw [extended.items, Item.declaredNames_append]
    exact congrArg _ extended.declared
  refine ⟨extended.ports.trans accounts.given, ?_, ?_, ?_⟩
  · rw [extended.names, accounts.names, declared, List.reverse_append, List.append_assoc]
    rw [← accounts.names]
  · rw [declared]
    refine List.nodup_append.mpr ⟨accounts.distinct, fresh, fun name before other later same => ?_⟩
    exact unused other later (accounts.mem_names.mpr (List.mem_append_right _ (same ▸ before)))
  · rw [declared]
    intro name member isPort
    rcases List.mem_append.mp member with before | later
    · exact accounts.apart name before isPort
    · exact unused name later (accounts.mem_names.mpr (List.mem_append_left _ isPort))

private theorem of_same (accounts : draft.Accounts ports) (samePorts : next.ports = draft.ports)
    (sameNames : next.names = draft.names) (sameItems : next.items = draft.items) :
    next.Accounts ports where
  given := samePorts.trans accounts.given
  names := by rw [sameNames, sameItems, accounts.names]
  distinct := sameItems ▸ accounts.distinct
  apart := sameItems ▸ accounts.apart

theorem perform (accounts : draft.Accounts ports) {call : DraftCall} {reply : DraftReply}
    (done : draft.perform call = .ok (reply, next)) : next.Accounts ports := by
  cases call with
  | inputs | outputs =>
    cases done
    exact accounts
  | declare scope name new =>
    obtain ⟨fresh, after, declared, -, extended⟩ := draft.extends_declare scope name new
    simp only [ModuleDraft.perform, declared] at done
    cases done
    exact accounts.of_extends extended
  | enterSection title =>
    cases done
    exact accounts.of_same rfl rfl (by simp [items, ModuleDraft.enterSection, Item.flattenAll])
  | leaveSection =>
    obtain ⟨after, left, same⟩ := bind_eq_ok_iff.mp done
    cases same
    cases opened : draft.sections with
    | nil => rw [leaveSection_eq_error_iff.mpr ⟨opened, rfl⟩] at left; cases left
    | cons inner outer =>
      obtain ⟨after, left', -, ports, names, items, -⟩ := leaveSection_eq_ok opened
      cases left'.symm.trans left
      exact accounts.of_same ports names items
  | clocked clock body =>
    cases done
    exact accounts.of_extends (draft.extends_clocked clock body)
  | combinational body =>
    cases done
    exact accounts.of_extends (draft.extends_combinational body)
  | driveOutputs values =>
    simp only [ModuleDraft.perform] at done
    split at done
    · rename_i after driven
      cases done
      obtain ⟨added, extended⟩ := extends_driveOutputs_of_ok driven
      exact accounts.of_extends extended
    · cases done
      exact accounts

theorem run (accounts : draft.Accounts ports) {calls : List DraftCall}
    {replies : List DraftReply} (done : draft.run calls = .ok (replies, next)) :
    next.Accounts ports := by
  induction calls generalizing draft replies with
  | nil =>
    cases done
    exact accounts
  | cons call rest ih =>
    obtain ⟨⟨reply, middle⟩, first, others⟩ := bind_eq_ok_iff.mp done
    obtain ⟨⟨later, last⟩, remaining, same⟩ := bind_eq_ok_iff.mp others
    cases same
    exact ih (accounts.perform first) remaining

end Accounts
end ModuleDraft
end Multiport
