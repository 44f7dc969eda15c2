import Mathlib.Data.List.Nodup
import Multiport.Proofs.Simulation.Construction

namespace Multiport

namespace Module

variable {module : Module}

theorem inputs_subset {port : Port} (member : port ∈ module.inputs) : port ∈ module.ports :=
  (List.mem_filter.mp member).1

theorem port_eq_of_name_eq (distinct : module.names.Nodup) {first second : Port}
    (firstMember : first ∈ module.ports) (secondMember : second ∈ module.ports)
    (same : first.name = second.name) : first = second :=
  List.inj_on_of_nodup_map (List.nodup_append.mp distinct).1 firstMember secondMember same

theorem declaration_eq_of_name_eq (distinct : module.names.Nodup) {first second : Declaration}
    (firstMember : first ∈ module.declarations) (secondMember : second ∈ module.declarations)
    (same : first.name = second.name) : first = second :=
  List.inj_on_of_nodup_map (List.nodup_append.mp distinct).2.1 firstMember secondMember same

theorem port_name_ne_declaration_name (distinct : module.names.Nodup) {port : Port}
    {declaration : Declaration} (given : port ∈ module.ports)
    (declared : declaration ∈ module.declarations) : port.name ≠ declaration.name :=
  (List.nodup_append.mp distinct).2.2 _ (List.mem_map.mpr ⟨port, given, rfl⟩) _
    (List.mem_map.mpr ⟨declaration, declared, rfl⟩)

end Module

namespace Declaration

theorem eq_of_mem_widthEntries {declaration : Declaration} {entry : String × Nat}
    (member : entry ∈ declaration.widthEntries) :
    entry.1 = declaration.name ∧ declaration.shape.dims = [entry.2] := by
  unfold widthEntries at member
  split at member
  · rename_i width dims
    rw [List.mem_singleton] at member
    subst member
    exact ⟨rfl, dims⟩
  · simp at member

theorem eq_of_mem_registerEntries {declaration : Declaration} {entry : String × Bits}
    (member : entry ∈ declaration.registerEntries) :
    ∃ width, declaration = reg width entry.1 ∧ entry.2 = .x width := by
  obtain ⟨kind, ⟨dims⟩, name⟩ := declaration
  simp only [registerEntries] at member
  split at member
  · rename_i width
    rw [List.mem_singleton] at member
    subst member
    exact ⟨width, rfl, rfl⟩
  · simp at member

theorem eq_of_mem_arrayEntries {declaration : Declaration} {entry : String × WordArray}
    (member : entry ∈ declaration.arrayEntries) :
    ∃ width depth, declaration = array width depth entry.1 ∧ entry.2 = .x width depth := by
  obtain ⟨kind, ⟨dims⟩, name⟩ := declaration
  simp only [arrayEntries] at member
  split at member
  · rename_i depth width
    rw [List.mem_singleton] at member
    subst member
    exact ⟨width, depth, rfl, rfl⟩
  · simp at member

end Declaration

namespace Simulator

/-- The state has the names, widths and logic of the simulator of a module. -/
def Simulates (sim : Simulator) (module : Module) : Prop := (elaborated module).Alike sim

theorem simulates_elaborated (module : Module) : (elaborated module).Simulates module :=
  .refl _

theorem Simulates.run {sim : Simulator} {module : Module} (state : sim.Simulates module)
    (operations : List Operation) : (sim.run operations).Simulates module :=
  state.trans (alike_run sim operations)

namespace Simulates

variable {module : Module} {sim : Simulator}

theorem clocked (state : sim.Simulates module) :
    sim.clocked = module.items.flatMap Item.clockedBlocks := Alike.clocked state

theorem width_of_port (state : sim.Simulates module) (distinct : module.names.Nodup) {port : Port}
    (given : port ∈ module.ports) : sim.widths.get? port.name = some port.width := by
  rw [Alike.widths state]
  refine Table.get?_insertAll_of_mem
    (List.mem_append_left _ (List.mem_map.mpr ⟨port, given, rfl⟩)) ?_
  intro entry member named
  rcases List.mem_append.mp member with ofPort | ofDeclaration
  · obtain ⟨other, otherGiven, rfl⟩ := List.mem_map.mp ofPort
    rw [Module.port_eq_of_name_eq distinct otherGiven given named]
  · obtain ⟨declaration, declared, inEntries⟩ := List.mem_flatMap.mp ofDeclaration
    have same := (Declaration.eq_of_mem_widthEntries inEntries).1
    exact absurd (named.symm.trans same)
      (Module.port_name_ne_declaration_name distinct given declared)

theorem width_of_declaration (state : sim.Simulates module) (distinct : module.names.Nodup)
    {declaration : Declaration} {width : Nat} (declared : declaration ∈ module.declarations)
    (dims : declaration.shape.dims = [width]) :
    sim.widths.get? declaration.name = some width := by
  rw [Alike.widths state]
  have present : (declaration.name, width) ∈ declaration.widthEntries := by
    simp [Declaration.widthEntries, dims]
  refine Table.get?_insertAll_of_mem (List.mem_append_right _
    (List.mem_flatMap.mpr ⟨declaration, declared, present⟩)) ?_
  intro entry member named
  rcases List.mem_append.mp member with ofPort | ofDeclaration
  · obtain ⟨port, given, rfl⟩ := List.mem_map.mp ofPort
    exact absurd named (Module.port_name_ne_declaration_name distinct given declared)
  · obtain ⟨other, otherDeclared, inEntries⟩ := List.mem_flatMap.mp ofDeclaration
    obtain ⟨same, otherDims⟩ := Declaration.eq_of_mem_widthEntries inEntries
    have equal :=
      Module.declaration_eq_of_name_eq distinct otherDeclared declared (same.symm.trans named)
    rw [equal, dims, List.cons.injEq] at otherDims
    exact otherDims.1.symm

theorem input (state : sim.Simulates module) (distinct : module.names.Nodup) {port : Port}
    (given : port ∈ module.inputs) :
    ∃ bits, sim.inputs.get? port.name = some bits ∧ bits.width = port.width := by
  have start : (elaborated module).inputs.get? port.name = some (.x port.width) := by
    refine Table.get?_insertAll_of_mem (List.mem_map.mpr ⟨port, given, rfl⟩) ?_
    intro entry member named
    obtain ⟨other, otherGiven, rfl⟩ := List.mem_map.mp member
    rw [Module.port_eq_of_name_eq distinct (Module.inputs_subset otherGiven)
      (Module.inputs_subset given) named]
  have width := Alike.inputs state port.name
  rw [start, Option.map_some, Option.map_eq_some_iff] at width
  simpa using width

theorem inputs_eq_none (state : sim.Simulates module) {name : String}
    (absent : ∀ port ∈ module.inputs, port.name ≠ name) : sim.inputs.get? name = none := by
  have start : (elaborated module).inputs.get? name = none := by
    apply Table.get?_insertAll_of_forall_ne
    intro entry member
    obtain ⟨port, given, rfl⟩ := List.mem_map.mp member
    exact absent port given
  have width := Alike.inputs state name
  rwa [start, Option.map_none, Option.map_eq_none_iff] at width

theorem inputs_of_declaration (state : sim.Simulates module) (distinct : module.names.Nodup)
    {declaration : Declaration} (declared : declaration ∈ module.declarations) :
    sim.inputs.get? declaration.name = none :=
  state.inputs_eq_none fun _ given =>
    Module.port_name_ne_declaration_name distinct (Module.inputs_subset given) declared

private theorem registers_elaborated (module : Module) (name : String) :
    (elaborated module).registers.get? name =
      if name ∈ module.settledEntries.map Prod.fst then none
      else (Table.empty.insertAll
        (module.declarations.flatMap Declaration.registerEntries)).get? name :=
  Table.get?_foldl_erase _ _ name

/-- A register that no combinational block settles starts out unknown. -/
theorem register_elaborated (distinct : module.names.Nodup) {width : Nat} {name : String}
    (declared : Declaration.reg width name ∈ module.declarations)
    (unsettled : name ∉ module.settledEntries.map Prod.fst) :
    (elaborated module).registers.get? name = some (.x width) := by
  rw [registers_elaborated, if_neg unsettled]
  refine Table.get?_insertAll_of_mem (List.mem_flatMap.mpr ⟨_, declared,
    List.mem_singleton.mpr rfl⟩) ?_
  intro entry member named
  obtain ⟨other, otherDeclared, inEntries⟩ := List.mem_flatMap.mp member
  obtain ⟨otherWidth, rfl, value⟩ := Declaration.eq_of_mem_registerEntries inEntries
  have equal := Module.declaration_eq_of_name_eq distinct otherDeclared declared named
  simp only [Declaration.reg, Declaration.mk.injEq, Shape.mk.injEq, List.cons.injEq] at equal
  rw [value, equal.2.1.1]

/-- A register that no combinational block settles holds a value of its width. -/
theorem register (state : sim.Simulates module) (distinct : module.names.Nodup) {width : Nat}
    {name : String} (declared : Declaration.reg width name ∈ module.declarations)
    (unsettled : name ∉ module.settledEntries.map Prod.fst) :
    ∃ bits, sim.registers.get? name = some bits ∧ bits.width = width := by
  have held := Alike.registers state name
  rw [register_elaborated distinct declared unsettled, Option.map_some,
    Option.map_eq_some_iff] at held
  simpa using held

theorem registers_eq_none (state : sim.Simulates module) {name : String}
    (unclocked : name ∈ module.settledEntries.map Prod.fst ∨
      ∀ width, Declaration.reg width name ∉ module.declarations) :
    sim.registers.get? name = none := by
  have start : (elaborated module).registers.get? name = none := by
    rw [registers_elaborated]
    split
    · rfl
    · rename_i unsettled
      apply Table.get?_insertAll_of_forall_ne
      intro entry member named
      obtain ⟨other, declared, inEntries⟩ := List.mem_flatMap.mp member
      obtain ⟨width, rfl, -⟩ := Declaration.eq_of_mem_registerEntries inEntries
      rcases unclocked with settled | undeclared
      · exact unsettled settled
      · exact undeclared width (named ▸ declared)
  have held := Alike.registers state name
  rwa [start, Option.map_none, Option.map_eq_none_iff] at held

private theorem uniform_elaborated (module : Module) (name : String) (array : WordArray)
    (found : (elaborated module).arrays.get? name = some array) : array.Uniform := by
  rcases Table.mem_of_get?_insertAll found with before | member
  · cases before
  · obtain ⟨declaration, -, inEntries⟩ := List.mem_flatMap.mp member
    obtain ⟨width, depth, -, value⟩ := Declaration.eq_of_mem_arrayEntries inEntries
    intro word inWords
    simp only at value
    rw [value] at inWords ⊢
    simp only [WordArray.x, Array.mem_replicate] at inWords
    rw [inWords.2]
    exact Bits.width_x width

theorem uniform (state : sim.Simulates module) {name : String} {array : WordArray}
    (found : sim.arrays.get? name = some array) : array.Uniform :=
  Alike.uniform state (uniform_elaborated module) name array found

theorem array_elaborated (distinct : module.names.Nodup) {width depth : Nat} {name : String}
    (declared : Declaration.array width depth name ∈ module.declarations) :
    (elaborated module).arrays.get? name = some (.x width depth) := by
  refine Table.get?_insertAll_of_mem (List.mem_flatMap.mpr ⟨_, declared,
    List.mem_singleton.mpr rfl⟩) ?_
  intro entry member named
  obtain ⟨other, otherDeclared, inEntries⟩ := List.mem_flatMap.mp member
  obtain ⟨otherWidth, otherDepth, rfl, value⟩ := Declaration.eq_of_mem_arrayEntries inEntries
  have equal := Module.declaration_eq_of_name_eq distinct otherDeclared declared named
  simp only [Declaration.array, Declaration.mk.injEq, Shape.mk.injEq, List.cons.injEq] at equal
  rw [value, equal.2.1.1, equal.2.1.2.1]

theorem array (state : sim.Simulates module) (distinct : module.names.Nodup) {width depth : Nat}
    {name : String} (declared : Declaration.array width depth name ∈ module.declarations) :
    ∃ array, sim.arrays.get? name = some array ∧ array.width = width ∧ array.depth = depth ∧
      array.Uniform := by
  have size := Alike.arrays state name
  rw [array_elaborated distinct declared, Option.map_some, Option.map_eq_some_iff] at size
  obtain ⟨array, found, size⟩ := size
  simp only [Prod.mk.injEq, WordArray.depth_x] at size
  exact ⟨array, found, size.1, size.2, state.uniform found⟩

/-- A name with one value among the continuous assignments is driven by it. -/
theorem driver (state : sim.Simulates module) {name : String} {value : Expr}
    (driven : (name, value) ∈ module.driverEntries)
    (single : ∀ entry ∈ module.driverEntries, entry.1 = name → entry.2 = value) :
    sim.drivers.get? name = some value := by
  rw [Alike.drivers state]
  exact Table.get?_insertAll_of_mem driven single

theorem drivers_eq_none (state : sim.Simulates module) {name : String}
    (absent : ∀ entry ∈ module.driverEntries, entry.1 ≠ name) : sim.drivers.get? name = none := by
  rw [Alike.drivers state]
  exact Table.get?_insertAll_of_forall_ne absent

/-- A name that one combinational block settles is found with this block. -/
theorem settled (state : sim.Simulates module) {name : String} {body : List Statement}
    (settles : (name, body) ∈ module.settledEntries)
    (single : ∀ entry ∈ module.settledEntries, entry.1 = name → entry.2 = body) :
    sim.settled.get? name = some body := by
  rw [Alike.settled state]
  exact Table.get?_insertAll_of_mem settles single

end Simulates
end Simulator
end Multiport
