import Multiport.Proofs.Netlist.Mentions
import Multiport.Proofs.Outcome
import Multiport.Simulation.Simulator

namespace Multiport

namespace Update

def name : Update → String
  | register name _ => name
  | word array _ _ => array

/-- The simulator holds what an update changes. -/
def HasTarget (sim : Simulator) : Update → Prop
  | register name _ => sim.registers.contains name = true
  | word array _ _ => sim.arrays.contains array = true

instance (sim : Simulator) : ∀ update : Update, Decidable (update.HasTarget sim)
  | register name _ => inferInstanceAs (Decidable (sim.registers.contains name = true))
  | word array _ _ => inferInstanceAs (Decidable (sim.arrays.contains array = true))

def onRegister (name : String) (held : Bits) : Update → Bits
  | register target value => if target = name then value.resize held.width else held
  | word _ _ _ => held

def onArray (name : String) (array : WordArray) : Update → WordArray
  | register _ _ => array
  | word target address value => if target = name then array.write address value else array

theorem foldl_onRegister_of_ne {name : String} {updates : List Update}
    (apart : ∀ update ∈ updates, update.name ≠ name) (held : Bits) :
    updates.foldl (onRegister name) held = held := by
  induction updates with
  | nil => rfl
  | cons first rest ih =>
    have other := apart first List.mem_cons_self
    have same : onRegister name held first = held := by
      cases first with
      | register target value => simp_all [onRegister, Update.name]
      | word array address value => rfl
    rw [List.foldl_cons, same]
    exact ih fun update member => apart update (List.mem_cons_of_mem first member)

theorem foldl_onArray_of_ne {name : String} {updates : List Update}
    (apart : ∀ update ∈ updates, update.name ≠ name) (array : WordArray) :
    updates.foldl (onArray name) array = array := by
  induction updates with
  | nil => rfl
  | cons first rest ih =>
    have other := apart first List.mem_cons_self
    have same : onArray name array first = array := by
      cases first with
      | register target value => rfl
      | word target address value => simp_all [onArray, Update.name]
    rw [List.foldl_cons, same]
    exact ih fun update member => apart update (List.mem_cons_of_mem first member)

end Update

private theorem Table.contains_adjust {Value : Type} (table : Table Value) (key name : String)
    (change : Value → Value) : (table.adjust key change).contains name = table.contains name := by
  rw [Bool.eq_iff_iff, Table.contains_iff_mem_keys, Table.contains_iff_mem_keys,
    Table.keys_adjust]

namespace Simulator

/-- The simulator after an update, which changes nothing that is not there. -/
def applied (sim : Simulator) : Update → Simulator
  | .register name value =>
      { sim with registers := sim.registers.adjust name fun held => value.resize held.width }
  | .word name address value =>
      { sim with arrays := sim.arrays.adjust name fun array => array.write address value }

theorem hasTarget_applied (sim : Simulator) (update other : Update) :
    other.HasTarget (sim.applied update) ↔ other.HasTarget sim := by
  cases update <;> cases other <;> simp [Update.HasTarget, applied, Table.contains_adjust]

theorem apply_eq_ok_iff {sim next : Simulator} {update : Update} :
    sim.apply update = .ok next ↔ update.HasTarget sim ∧ next = sim.applied update := by
  cases update with
  | register name value =>
    simp only [apply, Update.HasTarget, applied]
    by_cases held : sim.registers.contains name = true <;> simp [held, eq_comm]
  | word name address value =>
    simp only [apply, Update.HasTarget, applied]
    by_cases held : sim.arrays.contains name = true <;> simp [held, eq_comm]

/-- Updates are carried out completely exactly if each has a target. -/
theorem commit_eq_ok_iff {sim next : Simulator} {updates : List Update} :
    sim.commit updates = (.ok (), next) ↔
      (∀ update ∈ updates, update.HasTarget sim) ∧ next = updates.foldl applied sim := by
  induction updates generalizing sim with
  | nil => simp [commit, eq_comm]
  | cons first rest ih =>
    simp only [commit, List.forall_mem_cons, List.foldl_cons]
    cases step : sim.apply first with
    | error error =>
      have missing : ¬ first.HasTarget sim := by
        intro target
        have applies := apply_eq_ok_iff.mpr ⟨target, rfl⟩
        rw [step] at applies
        cases applies
      simp [missing]
    | ok middle =>
      obtain ⟨target, rfl⟩ := apply_eq_ok_iff.mp step
      simp only [ih, target, hasTarget_applied, true_and]

theorem registers_foldl_applied (sim : Simulator) (updates : List Update) (name : String) :
    (updates.foldl applied sim).registers.get? name =
      (sim.registers.get? name).map fun held => updates.foldl (Update.onRegister name) held := by
  induction updates generalizing sim with
  | nil => simp
  | cons first rest ih =>
    rw [List.foldl_cons, ih]
    cases first with
    | register target value =>
      simp only [applied, Table.get?_adjust, List.foldl_cons, Update.onRegister]
      by_cases same : name = target
      · subst same; cases sim.registers.get? name <;> simp
      · simp [same, Ne.symm same]
    | word target address value => rfl

theorem arrays_foldl_applied (sim : Simulator) (updates : List Update) (name : String) :
    (updates.foldl applied sim).arrays.get? name =
      (sim.arrays.get? name).map fun array => updates.foldl (Update.onArray name) array := by
  induction updates generalizing sim with
  | nil => simp
  | cons first rest ih =>
    rw [List.foldl_cons, ih]
    cases first with
    | register target value => rfl
    | word target address value =>
      simp only [applied, Table.get?_adjust, List.foldl_cons, Update.onArray]
      by_cases same : name = target
      · subst same; cases sim.arrays.get? name <;> simp
      · simp [same, Ne.symm same]

end Simulator

namespace Statement

mutual

private theorem name_mem_assigned (environment : Environment) :
    ∀ (statement : Statement) (demanded : List Update),
      statement.updates environment = .ok demanded →
        ∀ update ∈ demanded, update.name ∈ statement.assigned
  | blocking target value, demanded, success => by cases success
  | nonblocking target value, demanded, success => by
    simp only [updates] at success
    obtain ⟨bits, -, success⟩ := bind_eq_ok_iff.mp success
    intro update member
    cases target with
    | ident name =>
      cases success
      simp_all [assigned, Expr.assigned, Update.name]
    | word array index =>
      simp only [Update.ofTarget] at success
      obtain ⟨address, -, success⟩ := bind_eq_ok_iff.mp success
      split at success <;> cases success <;> simp_all [assigned, Expr.assigned, Update.name]
    | number | paren | binary | cond => cases success
  | cond condition onTrue onFalse, demanded, success => by
    simp only [updates] at success
    obtain ⟨decided, -, success⟩ := bind_eq_ok_iff.mp success
    intro update member
    simp only [assigned, List.mem_append]
    split at success
    · exact .inl (name_mem_assignedAll environment onTrue demanded success update member)
    · exact .inr (name_mem_assignedAll environment onFalse demanded success update member)

/-- The updates that statements ask for change only what the statements may assign. -/
theorem name_mem_assignedAll (environment : Environment) :
    ∀ (body : List Statement) (demanded : List Update),
      updatesAll environment body = .ok demanded →
        ∀ update ∈ demanded, update.name ∈ assignedAll body
  | [], demanded, success => by
    cases success
    simp
  | statement :: rest, demanded, success => by
    simp only [updatesAll] at success
    obtain ⟨first, firstDone, success⟩ := bind_eq_ok_iff.mp success
    obtain ⟨others, othersDone, success⟩ := bind_eq_ok_iff.mp success
    cases success
    intro update member
    simp only [assignedAll, List.mem_append]
    rcases List.mem_append.mp member with early | late
    · exact .inl (name_mem_assigned environment statement first firstDone update early)
    · exact .inr (name_mem_assignedAll environment rest others othersDone update late)

end

theorem updatesAll_append (environment : Environment) (first second : List Statement) :
    updatesAll environment (first ++ second) = (do
      let earlier ← updatesAll environment first
      return earlier ++ (← updatesAll environment second)) := by
  induction first with
  | nil =>
    simp only [List.nil_append, updatesAll, ok_bind]
    cases updatesAll environment second <;> rfl
  | cons statement rest ih =>
    simp only [List.cons_append, updatesAll, ih, bind_assoc, pure_bind, List.append_assoc]

end Statement

namespace ClockedBlock

/-- The updates that a block asks for; none if it fails. -/
def demands (block : ClockedBlock) (environment : Environment) : List Update :=
  match Statement.updatesAll environment block.body with
  | .ok updates => updates
  | .error _ => []

theorem demands_of_ok {block : ClockedBlock} {environment : Environment} {updates : List Update}
    (success : Statement.updatesAll environment block.body = .ok updates) :
    block.demands environment = updates := by
  simp [demands, success]

theorem name_mem_of_mem_demands {block : ClockedBlock} {environment : Environment}
    {update : Update} (member : update ∈ block.demands environment) :
    update.name ∈ Statement.assignedAll block.body := by
  unfold demands at member
  split at member
  · rename_i updates success
    exact Statement.name_mem_assignedAll environment block.body updates success update member
  · simp at member

theorem foldl_onRegister_of_not_mem {name : String} {blocks : List ClockedBlock}
    (environment : Environment)
    (silent : ∀ block ∈ blocks, name ∉ Statement.assignedAll block.body) (held : Bits) :
    (blocks.flatMap fun block => block.demands environment).foldl (Update.onRegister name) held =
      held := by
  apply Update.foldl_onRegister_of_ne
  intro update member same
  obtain ⟨block, inBlocks, demanded⟩ := List.mem_flatMap.mp member
  exact silent block inBlocks (same ▸ name_mem_of_mem_demands demanded)

theorem foldl_onArray_filter (name : String) (environment : Environment)
    (blocks : List ClockedBlock) (array : WordArray) :
    (blocks.flatMap fun block => block.demands environment).foldl (Update.onArray name) array =
      ((blocks.filter fun block => name ∈ Statement.assignedAll block.body).flatMap
        fun block => block.demands environment).foldl (Update.onArray name) array := by
  induction blocks generalizing array with
  | nil => rfl
  | cons block rest ih =>
    by_cases assigns : name ∈ Statement.assignedAll block.body
    · rw [List.filter_cons_of_pos (by simpa using assigns)]
      simp only [List.flatMap_cons, List.foldl_append, ih]
    · have untouched : (block.demands environment).foldl (Update.onArray name) array = array := by
        apply Update.foldl_onArray_of_ne
        intro update member same
        exact assigns (same ▸ name_mem_of_mem_demands member)
      rw [List.filter_cons_of_neg (by simpa using assigns), List.flatMap_cons, List.foldl_append,
        untouched, ih]

/-- Blocks together ask for updates exactly if each does, and then for those of each in turn. -/
theorem updatesAll_flatMap_eq_ok_iff {environment : Environment} {blocks : List ClockedBlock}
    {updates : List Update} :
    Statement.updatesAll environment (blocks.flatMap ClockedBlock.body) = .ok updates ↔
      (∀ block ∈ blocks, ∃ demanded,
        Statement.updatesAll environment block.body = .ok demanded) ∧
      updates = blocks.flatMap fun block => block.demands environment := by
  induction blocks generalizing updates with
  | nil => simp [Statement.updatesAll, eq_comm]
  | cons block rest ih =>
    simp only [List.flatMap_cons, Statement.updatesAll_append, List.forall_mem_cons]
    cases done : Statement.updatesAll environment block.body with
    | error error => simp
    | ok demanded =>
      simp only [ok_bind, bind_eq_ok_iff, ih, pure_eq_ok, Except.ok.injEq, demands_of_ok done]
      constructor
      · rintro ⟨others, ⟨each, rfl⟩, rfl⟩
        exact ⟨⟨⟨demanded, rfl⟩, each⟩, rfl⟩
      · rintro ⟨⟨-, each⟩, rfl⟩
        exact ⟨_, ⟨each, rfl⟩, rfl⟩

end ClockedBlock

namespace Simulator

def selectedBlocks (sim : Simulator) (selected : String → Bool) : List ClockedBlock :=
  sim.clocked.filter fun block => selected block.clock

/-- All updates asked for at an edge, in the order of the blocks. -/
def demands (sim : Simulator) (selected : String → Bool) : List Update :=
  (sim.selectedBlocks selected).flatMap fun block => block.demands sim.environment

/-- An edge succeeds exactly if every block gives its updates and every update has a target, and
then all updates are carried out. -/
theorem fire_eq_ok_iff {sim next : Simulator} {selected : String → Bool} :
    sim.fire selected = (.ok (), next) ↔
      (∀ block ∈ sim.selectedBlocks selected, ∃ demanded,
        Statement.updatesAll sim.environment block.body = .ok demanded) ∧
      (∀ update ∈ sim.demands selected, update.HasTarget sim) ∧
      next = (sim.demands selected).foldl applied sim := by
  unfold fire
  cases asked : sim.updates selected with
  | error error =>
    have failed : ¬ ∀ block ∈ sim.selectedBlocks selected, ∃ demanded,
        Statement.updatesAll sim.environment block.body = .ok demanded := by
      intro each
      have success : sim.updates selected = .ok (sim.demands selected) :=
        ClockedBlock.updatesAll_flatMap_eq_ok_iff.mpr ⟨each, rfl⟩
      rw [asked] at success
      cases success
    simp [failed]
  | ok updates =>
    obtain ⟨each, rfl⟩ := ClockedBlock.updatesAll_flatMap_eq_ok_iff.mp asked
    simp only [commit_eq_ok_iff]
    exact ⟨fun done => ⟨each, done⟩, fun done => done.2⟩

end Simulator
end Multiport
