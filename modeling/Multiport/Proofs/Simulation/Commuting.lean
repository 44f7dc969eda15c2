import Mathlib.Data.List.Perm.Basic
import Multiport.Proofs.Simulation.Commit
import Multiport.Proofs.Simulation.Following
import Multiport.Proofs.Simulation.Serial

namespace Multiport

namespace Update

theorem lastValue_filter (updates : List Update) (cell : Cell) (width : Nat) (held : Bits) :
    lastValue updates cell width held =
      lastValue (updates.filter fun update => update.cell = cell) cell width held := by
  simp [lastValue, ← List.filter_reverse, List.find?_filter]

end Update

/-- The state has the cell. There is no word beyond the end of an array. -/
def Cell.Present (sim : Simulator) : Cell → Prop
  | register name => sim.registers.contains name = true
  | word array address =>
      ((sim.arrays.get? array).any fun words => address < words.depth) = true

instance (sim : Simulator) : ∀ cell : Cell, Decidable (cell.Present sim)
  | .register name => inferInstanceAs (Decidable (sim.registers.contains name = true))
  | .word array address => inferInstanceAs
      (Decidable (((sim.arrays.get? array).any fun words => address < words.depth) = true))

private theorem flatMap_eq_of_perm {Source Target : Type} {parts : Source → List Target}
    {first second : List Source} (order : first.Perm second)
    (alone : first.Pairwise fun one other => parts one = [] ∨ parts other = []) :
    first.flatMap parts = second.flatMap parts := by
  induction order with
  | nil => rfl
  | cons head _ ih => rw [List.flatMap_cons, List.flatMap_cons, ih alone.of_cons]
  | swap head next rest =>
    have apart := (List.pairwise_cons.mp alone).1 head List.mem_cons_self
    rcases apart with empty | empty <;> simp [empty]
  | trans earlier _ ih ih' =>
    exact (ih alone).trans (ih' (earlier.pairwise alone fun apart => apart.symm))

namespace Simulator

/-- Updates have one effect if they are the same for each cell of the state. -/
theorem foldl_applied_eq_of_cells (sim : Simulator) {first second : List Update}
    (same : ∀ cell : Cell, cell.Present sim → first.filter (fun update => update.cell = cell) =
      second.filter fun update => update.cell = cell) :
    first.foldl applied sim = second.foldl applied sim := by
  have lastValue : ∀ cell : Cell, cell.Present sim → ∀ width held,
      Update.lastValue first cell width held = Update.lastValue second cell width held := by
    intro cell present width held
    rw [Update.lastValue_filter, same cell present, ← Update.lastValue_filter]
  refine foldl_applied_ext sim (fun name => ?_) fun name => ?_
  · rw [(commits_foldl_applied sim first).registers, (commits_foldl_applied sim second).registers]
    cases found : sim.registers.get? name with
    | none => rfl
    | some held =>
      have present : Cell.Present sim (.register name) := by
        simp [Cell.Present, Table.contains, found]
      simp only [Option.map_some, lastValue _ present]
  · rw [(commits_foldl_applied sim first).arrays, (commits_foldl_applied sim second).arrays]
    cases found : sim.arrays.get? name with
    | none => rfl
    | some array =>
      simp only [Option.map_some]
      congr 2
      refine Array.ext (by simp) fun address inFirst inSecond => ?_
      have inside : address < array.depth := by simpa [WordArray.depth] using inFirst
      have present : Cell.Present sim (.word name address) := by
        simp [Cell.Present, found, inside]
      simp only [Array.getElem_mapIdx, lastValue _ present]

/-- At an edge no cell of the state is updated by two blocks. -/
def Uncontested (sim : Simulator) (edge : Operation) : Prop :=
  (sim.selectedBlocks edge.selects).Pairwise fun first second =>
    ∀ update ∈ first.demands sim.environment, ∀ other ∈ second.demands sim.environment,
      update.cell = other.cell → ¬ update.cell.Present sim

instance (sim : Simulator) (edge : Operation) : Decidable (sim.Uncontested edge) :=
  inferInstanceAs (Decidable (List.Pairwise _ _))

/-- The state with its clocked blocks in another order. -/
def withClocked (sim : Simulator) (blocks : List ClockedBlock) : Simulator :=
  { sim with clocked := blocks }

variable {sim : Simulator} {blocks : List ClockedBlock}

theorem environment_withClocked : (sim.withClocked blocks).environment = sim.environment :=
  environment_congr rfl rfl rfl rfl rfl

theorem selectedBlocks_withClocked (order : blocks.Perm sim.clocked) (selected : String → Bool) :
    ((sim.withClocked blocks).selectedBlocks selected).Perm (sim.selectedBlocks selected) :=
  order.filter _

theorem demands_withClocked (order : blocks.Perm sim.clocked) (selected : String → Bool) :
    ((sim.withClocked blocks).demands selected).Perm (sim.demands selected) := by
  rw [demands, demands, environment_withClocked]
  exact (selectedBlocks_withClocked order selected).flatMap_right _

theorem foldl_applied_withClocked (sim : Simulator) (blocks : List ClockedBlock)
    (updates : List Update) :
    updates.foldl applied (sim.withClocked blocks) =
      (updates.foldl applied sim).withClocked blocks := by
  induction updates generalizing sim with
  | nil => rfl
  | cons first rest ih =>
    rw [List.foldl_cons, List.foldl_cons, ← ih]
    cases first <;> rfl

/-- Uncontested updates have one effect in any order of the blocks. -/
theorem foldl_demands_withClocked (order : blocks.Perm sim.clocked) {edge : Operation}
    (apart : sim.Uncontested edge) :
    ((sim.withClocked blocks).demands edge.selects).foldl applied (sim.withClocked blocks) =
      ((sim.demands edge.selects).foldl applied sim).withClocked blocks := by
  rw [foldl_applied_withClocked]
  refine congrArg (withClocked · blocks) ?_
  refine (foldl_applied_eq_of_cells sim fun cell present => ?_).symm
  rw [demands, demands, environment_withClocked, List.filter_flatMap, List.filter_flatMap]
  refine flatMap_eq_of_perm (selectedBlocks_withClocked order edge.selects).symm ?_
  refine apart.imp fun {first second} disjoint => ?_
  -- of two blocks that both update the cell, one would contest it
  by_contra both
  obtain ⟨inFirst, inSecond⟩ := not_or.mp both
  obtain ⟨update, updates⟩ := List.exists_mem_of_ne_nil _ inFirst
  obtain ⟨other, others⟩ := List.exists_mem_of_ne_nil _ inSecond
  simp only [List.mem_filter, decide_eq_true_eq] at updates others
  refine disjoint update updates.1 other others.1 (updates.2.trans others.2.symm) ?_
  rw [updates.2]
  exact present

/-- Blocks fire with success exactly if each gives its updates and every update has a target. -/
theorem fire_succeeds_iff {selected : String → Bool} :
    (sim.fire selected).1 = .ok () ↔
      (∀ block ∈ sim.selectedBlocks selected, ∃ demanded,
        Statement.updatesAll sim.environment block.body = .ok demanded) ∧
      ∀ update ∈ sim.demands selected, update.HasTarget sim := by
  constructor
  · intro success
    obtain ⟨each, targets, -⟩ := fire_eq_ok_iff.mp (Prod.ext success rfl)
    exact ⟨each, targets⟩
  · intro ⟨each, targets⟩
    rw [fire_eq_ok_iff.mpr ⟨each, targets, rfl⟩]

/-- The order of the blocks does not decide whether they fire with success. -/
theorem fire_succeeds_withClocked (order : blocks.Perm sim.clocked) (selected : String → Bool) :
    ((sim.withClocked blocks).fire selected).1 = .ok () ↔ (sim.fire selected).1 = .ok () := by
  rw [fire_succeeds_iff, fire_succeeds_iff, environment_withClocked]
  refine and_congr ?_ ?_
  · simp only [(selectedBlocks_withClocked order selected).mem_iff]
  · simp only [(demands_withClocked order selected).mem_iff]
    refine forall₂_congr fun update _ => ?_
    cases update <;> rfl

/-- Uncontested blocks that fire with success have one effect in any order. -/
theorem fire_withClocked (order : blocks.Perm sim.clocked) {edge : Operation}
    (apart : sim.Uncontested edge) {next : Simulator}
    (fired : sim.fire edge.selects = (.ok (), next)) :
    (sim.withClocked blocks).fire edge.selects = (.ok (), next.withClocked blocks) := by
  have success := (fire_succeeds_withClocked order edge.selects).mpr (congrArg Prod.fst fired)
  obtain ⟨each, targets⟩ := fire_succeeds_iff.mp success
  obtain ⟨-, -, rfl⟩ := fire_eq_ok_iff.mp fired
  exact fire_eq_ok_iff.mpr ⟨each, targets, (foldl_demands_withClocked order apart).symm⟩

/-- Whether an edge succeeds does not depend on the order of the clocked blocks. If it succeeds, and
no cell of the state is updated by two blocks, then neither does the state afterwards. -/
theorem clocked_blocks_commute (sim : Simulator) {blocks : List ClockedBlock}
    (order : blocks.Perm sim.clocked) {edge : Operation} (edges : edge.isEdge = true) :
    (((sim.withClocked blocks).perform edge).1 = .ok () ↔ (sim.perform edge).1 = .ok ()) ∧
      ((sim.perform edge).1 = .ok () → sim.Uncontested edge →
        ((sim.withClocked blocks).perform edge).2 =
          (sim.perform edge).2.withClocked blocks) := by
  constructor
  · by_cases input : ∀ clock, edge = .posedge clock → sim.inputs.contains clock = true
    · rw [(perform_edge edges input).1,
        (@perform_edge (sim.withClocked blocks) edge edges input).1]
      exact fire_succeeds_withClocked order edge.selects
    · -- both refuse a clock that is no input
      obtain ⟨clock, rfl, refused⟩ : ∃ clock, edge = .posedge clock ∧
          sim.inputs.contains clock ≠ true := by simpa using input
      simp [perform, posedge, withClocked, refused]
  · intro success apart
    obtain ⟨next, count, fired, -⟩ := exists_fire_of_perform edges success
    have reordered := fire_withClocked order apart fired
    cases edge with
    | tick =>
      simp only [Operation.selects] at fired reordered
      simp only [perform, tick, fired, reordered]
      rfl
    | posedge clock =>
      have input : sim.inputs.contains clock = true := by
        by_contra refused
        simp [perform, posedge, refused] at success
      have inputToo : (sim.withClocked blocks).inputs.contains clock = true := input
      simp only [Operation.selects] at fired reordered
      simp only [perform, posedge, input, inputToo, ↓reduceIte, fired, reordered]
    | set name value | setX name | setMemory name address value => cases edges

/-- Three blocks that exchange two registers and write an array. The first gives its word two
values, and the other two both write at an address that is out of range. -/
def bank : Module where
  name := "bank"
  ports := [.input 1 "clk", .input 4 "a", .input 4 "far"]
  body := [.declarations [.reg 4 "p", .reg 4 "q", .array 4 4 "words"],
    .always (.posedge (.ident "clk")) [.nonblocking (.ident "p") (.ident "a"),
      .nonblocking (.word "words" (.constant 2 0)) (.ident "q"),
      .nonblocking (.word "words" (.constant 2 0)) (.ident "p")],
    .always (.posedge (.ident "clk")) [.nonblocking (.ident "q") (.ident "p"),
      .nonblocking (.word "words" (.ident "far")) (.ident "p")],
    .always (.posedge (.ident "clk")) [.nonblocking (.word "words" (.ident "far")) (.ident "a"),
      .nonblocking (.word "words" (.constant 2 1)) (.ident "q")]]

def bankLoaded : Simulator :=
  (elaborated bank).run [.set "a" 3, .set "far" 9, .tick, .set "a" 6]

theorem clocked_blocks_commute_bank :
    ∃ other, other = bankLoaded.withClocked bankLoaded.clocked.reverse ∧
      bankLoaded.clocked.reverse.Perm bankLoaded.clocked ∧ bankLoaded.Uncontested .tick ∧
      (bankLoaded.perform .tick).1 = .ok () ∧ (other.perform .tick).1 = .ok () ∧
      (other.perform .tick).2.registers = (bankLoaded.perform .tick).2.registers ∧
      (other.perform .tick).2.arrays = (bankLoaded.perform .tick).2.arrays ∧
      (other.perform .tick).2.arrays.get? "words" =
        some ⟨4, #[.ofNat 4 3, .x 4, .x 4, .x 4]⟩ ∧
      (other.perform .tick).2.cycle = 2 := by
  have order : bankLoaded.clocked.reverse.Perm bankLoaded.clocked := List.reverse_perm _
  have apart : bankLoaded.Uncontested .tick := by decide +kernel
  have success : (bankLoaded.perform .tick).1 = .ok () := by decide +kernel
  obtain ⟨succeeds, becomes⟩ := @clocked_blocks_commute bankLoaded _ order .tick rfl
  have same := becomes success apart
  refine ⟨_, rfl, order, apart, success, succeeds.mpr success, ?_, ?_, ?_, ?_⟩
  · exact congrArg registers same |>.trans rfl
  · exact congrArg arrays same |>.trans rfl
  · rw [same]
    decide +kernel
  · rw [same]
    decide +kernel

end Simulator
end Multiport
