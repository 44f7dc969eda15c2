import Mathlib.Data.List.Dedup
import Multiport.Proofs.Netlist.Mentions

namespace Multiport

namespace Item

def declaredNames (items : List Item) : List String :=
  (items.flatMap declared).map Declaration.name

/-- Item by item, what is read is known or declared before, and what is assigned is so too or may be
assigned from outside. -/
def Scoped (outputs : List String) : List String → List Item → Prop
  | _, [] => True
  | known, item :: rest =>
      (∀ name ∈ item.reads, name ∈ known) ∧
        (∀ name ∈ item.assigned, name ∈ known ∨ name ∈ outputs) ∧
        Scoped outputs (known ++ declaredNames [item]) rest

theorem declaredNames_append (first second : List Item) :
    declaredNames (first ++ second) = declaredNames first ++ declaredNames second := by
  simp [declaredNames]

theorem scoped_append {outputs known : List String} {first second : List Item} :
    Scoped outputs known (first ++ second) ↔
      Scoped outputs known first ∧ Scoped outputs (known ++ declaredNames first) second := by
  induction first generalizing known with
  | nil => simp [Scoped, declaredNames]
  | cons item rest ih =>
    have names : declaredNames (item :: rest) = declaredNames [item] ++ declaredNames rest :=
      declaredNames_append [item] rest
    simp only [List.cons_append, Scoped, ih, names, ← List.append_assoc, and_assoc]

theorem Scoped.mono {outputs known more : List String} {items : List Item}
    (inScope : Scoped outputs known items) (bound : known ⊆ more) : Scoped outputs more items := by
  induction items generalizing known more with
  | nil => trivial
  | cons item rest ih =>
    obtain ⟨reads, assigned, later⟩ := inScope
    refine ⟨fun name member => bound (reads name member), fun name member => ?_, ih later ?_⟩
    · rcases assigned name member with before | output
      · exact .inl (bound before)
      · exact .inr output
    · intro name member
      rcases List.mem_append.mp member with before | here
      · exact List.mem_append_left _ (bound before)
      · exact List.mem_append_right _ here

/-- Parts that are each scoped by themselves are scoped one after another. -/
theorem scoped_flatMap {Part : Type} {outputs known : List String} {parts : List Part}
    {items : Part → List Item} (each : ∀ part ∈ parts, Scoped outputs known (items part)) :
    Scoped outputs known (parts.flatMap items) := by
  induction parts with
  | nil => trivial
  | cons part rest ih =>
    rw [List.flatMap_cons, scoped_append]
    refine ⟨each part List.mem_cons_self, ?_⟩
    exact (ih fun other member => each other (List.mem_cons_of_mem part member)).mono
      (List.subset_append_left _ _)

/-- What stands anywhere in scoped items uses what is known or stands before it. -/
theorem Scoped.split {outputs known : List String} {items before after : List Item} {item : Item}
    (inScope : Scoped outputs known items) (place : items = before ++ item :: after) :
    (∀ name ∈ item.reads, name ∈ known ∨ name ∈ declaredNames before) ∧
      ∀ name ∈ item.assigned, name ∈ known ∨ name ∈ declaredNames before ∨ name ∈ outputs := by
  rw [place, scoped_append] at inScope
  obtain ⟨-, reads, assigned, -⟩ := inScope
  refine ⟨fun name member => List.mem_append.mp (reads name member), fun name member => ?_⟩
  rcases assigned name member with inside | output
  · rcases List.mem_append.mp inside with start | declared
    · exact .inl start
    · exact .inr (.inl declared)
  · exact .inr (.inr output)

end Item

namespace Module

/-- Names are distinct, and every item reads inputs and what earlier items declare, and assigns
outputs and what earlier items declare. -/
structure Closed (module : Module) : Prop where
  distinct : (module.ports.map Port.name ++ module.declarations.map Declaration.name).Nodup
  reads : ∀ before item after, module.items = before ++ item :: after → ∀ name ∈ item.reads,
    name ∈ module.inputs.map Port.name ∨ name ∈ Item.declaredNames before
  assigned : ∀ before item after, module.items = before ++ item :: after →
    ∀ name ∈ item.assigned,
      name ∈ module.outputs.map Port.name ∨ name ∈ Item.declaredNames before

def continuousCount (module : Module) (name : String) : Nat :=
  (module.items.flatMap Item.continuous).count name

def proceduralCount (module : Module) (name : String) : Nat :=
  (module.blocks.filter fun block => name ∈ Statement.assignedAll block.2).length

/-- The storage is declared first and assigned at edges only; every other register has one block,
every net and every output one continuous assignment, and no input any. -/
structure SinglyDriven (module : Module) (storage : String) : Prop where
  storageFirst : ∃ width depth, module.items.head? =
    some (.declarations [.array width depth storage])
  storageClocked : module.continuousCount storage = 0 ∧
    ∀ block ∈ module.blocks, storage ∈ Statement.assignedAll block.2 →
      ∃ clock, block.1 = .posedge clock
  registers : ∀ declaration ∈ module.declarations, declaration.kind = .reg →
    declaration.name ≠ storage →
      module.proceduralCount declaration.name = 1 ∧ module.continuousCount declaration.name = 0
  nets : ∀ declaration ∈ module.declarations, declaration.kind = .net →
    module.proceduralCount declaration.name = 0 ∧ module.continuousCount declaration.name = 1
  outputs : ∀ port ∈ module.outputs,
    module.proceduralCount port.name = 0 ∧ module.continuousCount port.name = 1
  inputs : ∀ port ∈ module.inputs,
    module.proceduralCount port.name = 0 ∧ module.continuousCount port.name = 0

/-- The width that a module gives to what can be assigned: a port, a net, a register or a word. -/
def Gives (module : Module) : Expr → Nat → Prop
  | .ident name, width =>
      (∃ port ∈ module.ports, port.name = name ∧ port.width = width) ∨
        ∃ declaration ∈ module.declarations, declaration.name = name ∧
          declaration.shape.dims = [width]
  | .word array _, width => ∃ depth, .array width depth array ∈ module.declarations
  | _, _ => False

theorem proceduralCount_eq (module : Module) (name : String) :
    module.proceduralCount name =
      (module.items.flatMap fun item => item.procedural.dedup).count name := by
  unfold proceduralCount blocks
  induction module.items with
  | nil => rfl
  | cons item rest ih =>
    rw [List.flatMap_cons, List.count_append, ← ih]
    cases item with
    | declarations | assigns | group => simp [List.filterMap_cons, Item.block?, Item.procedural]
    | always event body =>
      simp only [Item.block?, Item.procedural, List.filterMap_cons]
      by_cases assigns : name ∈ Statement.assignedAll body
      · rw [List.filter_cons_of_pos (by simpa using assigns), List.length_cons,
          List.count_eq_one_of_mem (List.nodup_dedup _) (List.mem_dedup.mpr assigns)]
        omega
      · rw [List.filter_cons_of_neg (by simpa using assigns),
          List.count_eq_zero_of_not_mem (by simpa using assigns)]
        omega

theorem not_mem_assigned {module : Module} {item : Item} (member : item ∈ module.items)
    {name : String} (clocked : module.proceduralCount name = 0)
    (driven : module.continuousCount name = 0) : name ∉ item.assigned := by
  rw [proceduralCount_eq, List.count_eq_zero] at clocked
  rw [continuousCount, List.count_eq_zero] at driven
  intro assigned
  rcases List.mem_append.mp assigned with continuous | procedural
  · exact driven (List.mem_flatMap.mpr ⟨item, member, continuous⟩)
  · exact clocked (List.mem_flatMap.mpr ⟨item, member, List.mem_dedup.mpr procedural⟩)

end Module
end Multiport
