import Multiport.Proofs.Simulation.Asking
import Multiport.Proofs.Simulation.Sizes

/-! Semantics of an edge. The statements of the rising blocks are all evaluated in the state before
the edge, and then the updates that they ask for are carried out in order. So each register and each
word ends with the last value that it is given, two registers can exchange their values, and an edge
that fails either leaves the state or has carried out exactly the updates before the one at fault.
-/
namespace Multiport

/-- What an update gives a value to. -/
inductive Cell where
  | register (name : String)
  | word (array : String) (address : Nat)
deriving DecidableEq, Repr

namespace Update

def cell : Update → Cell
  | register name _ => .register name
  | word array address _ => .word array address

def value : Update → Bits
  | register _ value | word _ _ value => value

def missing : Update → SimulationError
  | register name _ => .unknownSignal name
  | word array _ _ => .unknownMemory array

/-- What a cell of the given width holds after updates: the last value that they give it, cut or
extended to the width, or what it held before if they give it none. -/
def lastValue (updates : List Update) (cell : Cell) (width : Nat) (held : Bits) : Bits :=
  match updates.reverse.find? fun update => update.cell = cell with
  | some update => update.value.resize width
  | none => held

theorem lastValue_cons (first : Update) (rest : List Update) (cell : Cell) (width : Nat)
    (held : Bits) :
    lastValue (first :: rest) cell width held =
      lastValue rest cell width (if first.cell = cell then first.value.resize width else held) := by
  simp only [lastValue, List.reverse_cons, List.find?_append]
  cases rest.reverse.find? fun update => update.cell = cell with
  | some update => rfl
  | none => by_cases same : first.cell = cell <;> simp [same]

private theorem width_onRegister (name : String) (held : Bits) (update : Update) :
    (onRegister name held update).width = held.width := by
  cases update with
  | register target value =>
    simp only [onRegister]
    split
    · exact Bits.width_resize value held.width
    · rfl
  | word target address value => rfl

theorem foldl_onRegister_eq (name : String) (updates : List Update) (held : Bits) :
    updates.foldl (onRegister name) held = lastValue updates (.register name) held.width held := by
  induction updates generalizing held with
  | nil => rfl
  | cons first rest ih =>
    rw [List.foldl_cons, ih, width_onRegister, lastValue_cons]
    cases first with
    | register target value => simp only [onRegister, cell, Update.value, Cell.register.injEq]
    | word target address value => simp [onRegister, cell]

private theorem mapIdx_self (words : Array Bits) : words.mapIdx (fun _ word => word) = words :=
  Array.ext (by simp) fun index inMap inWords => by simp

private theorem onArray_eq (name : String) (array : WordArray) (update : Update) :
    onArray name array update =
      { array with
        words := array.words.mapIdx fun address word =>
          if update.cell = .word name address then update.value.resize array.width else word } := by
  cases update with
  | register target value => simp [onArray, cell, mapIdx_self]
  | word target address value =>
    by_cases same : target = name
    · subst same
      simp only [onArray, ↓reduceIte, WordArray.write, cell, Cell.word.injEq, true_and]
      congr 1
      refine Array.ext (by simp) fun index inSet inMap => ?_
      have inWords : index < array.words.size := by simpa using inMap
      rw [Array.getElem_setIfInBounds inWords, Array.getElem_mapIdx]
      rfl
    · simp [onArray, cell, same, mapIdx_self]

theorem foldl_onArray_eq (name : String) (updates : List Update) (array : WordArray) :
    updates.foldl (onArray name) array =
      { array with
        words := array.words.mapIdx fun address word =>
          lastValue updates (.word name address) array.width word } := by
  induction updates generalizing array with
  | nil => simp [lastValue, mapIdx_self]
  | cons first rest ih =>
    rw [List.foldl_cons, ih, onArray_eq]
    simp only [lastValue_cons, Array.mapIdx_mapIdx, Function.comp_def]

end Update

namespace Simulator

/-- What updates do to a state: each register and each word has the last value that it is given,
and all else stays. A word beyond the end of its array is no cell of the state. -/
structure Commits (updates : List Update) (before after : Simulator) : Prop where
  registers : ∀ name, after.registers.get? name =
    (before.registers.get? name).map fun held =>
      Update.lastValue updates (.register name) held.width held
  arrays : ∀ name, after.arrays.get? name =
    (before.arrays.get? name).map fun array =>
      { array with
        words := array.words.mapIdx fun address word =>
          Update.lastValue updates (.word name address) array.width word }
  inputs : after.inputs = before.inputs
  widths : after.widths = before.widths
  drivers : after.drivers = before.drivers
  settled : after.settled = before.settled
  clocked : after.clocked = before.clocked

private theorem alike_foldl_applied (sim : Simulator) (updates : List Update) :
    sim.Alike (updates.foldl applied sim) := by
  induction updates generalizing sim with
  | nil => exact .refl sim
  | cons first rest ih => exact (alike_applied sim first).trans (ih _)

private theorem inputs_foldl_applied (sim : Simulator) (updates : List Update) :
    (updates.foldl applied sim).inputs = sim.inputs := by
  induction updates generalizing sim with
  | nil => rfl
  | cons first rest ih =>
    rw [List.foldl_cons, ih]
    cases first <;> rfl

/-- Carrying out updates one after another gives each cell its last value. -/
theorem commits_foldl_applied (sim : Simulator) (updates : List Update) :
    Commits updates sim (updates.foldl applied sim) where
  registers name := by simp only [registers_foldl_applied, Update.foldl_onRegister_eq]
  arrays name := by simp only [arrays_foldl_applied, Update.foldl_onArray_eq]
  inputs := inputs_foldl_applied sim updates
  widths := (alike_foldl_applied sim updates).widths
  drivers := (alike_foldl_applied sim updates).drivers
  settled := (alike_foldl_applied sim updates).settled
  clocked := (alike_foldl_applied sim updates).clocked

/-- The first update that has no target is reported, and those before it stay carried out. -/
theorem commit_eq_error {sim : Simulator} {done rest : List Update} {update : Update}
    (targets : ∀ earlier ∈ done, earlier.HasTarget sim) (none : ¬ update.HasTarget sim) :
    sim.commit (done ++ update :: rest) = (.error update.missing, done.foldl applied sim) := by
  induction done generalizing sim with
  | nil =>
    cases update with
    | register name value =>
      simp only [Update.HasTarget] at none
      simp [commit, apply, none, Update.missing]
    | word array address value =>
      simp only [Update.HasTarget] at none
      simp [commit, apply, none, Update.missing]
  | cons first others ih =>
    obtain ⟨target, otherTargets⟩ := List.forall_mem_cons.mp targets
    have applies : sim.apply first = .ok (sim.applied first) := apply_eq_ok_iff.mpr ⟨target, rfl⟩
    rw [List.cons_append, commit, applies, List.foldl_cons]
    exact ih
      (fun earlier member =>
        (hasTarget_applied sim first earlier).mpr (otherTargets earlier member))
      (fun found => none ((hasTarget_applied sim first update).mp found))

/-- The statements that an edge runs: the blocks of its clocks, one after another. -/
def rising (sim : Simulator) (edge : Operation) : List Statement :=
  (sim.selectedBlocks edge.selects).flatMap ClockedBlock.body

private theorem Commits.of_perform {sim : Simulator} {edge : Operation}
    {answer : Except SimulationError Unit} {updates : List Update} (edges : edge.isEdge = true)
    (input : ∀ clock, edge = .posedge clock → sim.inputs.contains clock = true)
    (fired : sim.fire edge.selects = (answer, updates.foldl applied sim)) :
    (sim.perform edge).1 = answer ∧ Commits updates sim (sim.perform edge).2 := by
  obtain ⟨answers, count, becomes⟩ := perform_edge edges input
  rw [fired] at answers becomes
  exact ⟨answers, becomes ▸ { commits_foldl_applied sim updates with }⟩

/-- An edge evaluates everything in the state before it. A fault is answered and leaves the state;
otherwise the updates that are asked for are carried out, each cell getting its last value, up to
the first update that has no target. An edge that fails is not counted. -/
theorem edge_outcomes (sim : Simulator) {edge : Operation} (edges : edge.isEdge = true)
    (input : ∀ clock, edge = .posedge clock → sim.inputs.contains clock = true) :
    ((∃ updates, Asks sim.environment (sim.rising edge) updates) ∨
      ∃ error, Faults sim.environment (sim.rising edge) error) ∧
    (∀ error, Faults sim.environment (sim.rising edge) error →
      sim.perform edge = (.error error, sim)) ∧
    (∀ updates, Asks sim.environment (sim.rising edge) updates →
      (∀ update ∈ updates, update.HasTarget sim) →
      (sim.perform edge).1 = .ok () ∧ Commits updates sim (sim.perform edge).2) ∧
    (∀ done update rest, Asks sim.environment (sim.rising edge) (done ++ update :: rest) →
      (∀ earlier ∈ done, earlier.HasTarget sim) → ¬ update.HasTarget sim →
      (sim.perform edge).1 = .error update.missing ∧
        Commits done sim (sim.perform edge).2) ∧
    ∀ error, (sim.perform edge).1 = .error error → (sim.perform edge).2.cycle = sim.cycle := by
  have uncounted : ∀ error, (sim.perform edge).1 = .error error →
      (sim.perform edge).2.cycle = sim.cycle := by
    intro error failed
    simp [cycle_perform, failed, Except.isOk, Except.toBool]
  refine ⟨asks_or_faults _ _, ?_, ?_, ?_, uncounted⟩
  · intro error faults
    have failed : sim.updates edge.selects = .error error :=
      Statement.updatesAll_eq_error_iff.mpr faults
    obtain ⟨answers, count, becomes⟩ := perform_edge edges input
    simp only [fire, failed] at answers becomes
    have kept : count = sim.cycle := by
      have cycles := uncounted error answers
      rwa [becomes] at cycles
    exact Prod.ext answers (by rw [becomes, kept])
  · intro updates asks targets
    have asked : sim.updates edge.selects = .ok updates :=
      Statement.updatesAll_eq_ok_iff.mpr asks
    refine Commits.of_perform edges input ?_
    rw [fire, asked]
    exact commit_eq_ok_iff.mpr ⟨targets, rfl⟩
  · intro done update rest asks targets none
    have asked : sim.updates edge.selects = .ok (done ++ update :: rest) :=
      Statement.updatesAll_eq_ok_iff.mpr asks
    refine Commits.of_perform edges input ?_
    rw [fire, asked]
    exact commit_eq_error targets none

/-- A module that exchanges two registers at an edge, and writes the array at addresses that are in
range, out of range and unknown. The array is given its second word twice. -/
def exchange : Module where
  name := "exchange"
  ports := [.input 1 "clk", .input 1 "load", .input 4 "a", .input 4 "b"]
  body := [.declarations [.reg 4 "p", .reg 4 "q", .net 2 "nowhere", .array 4 4 "words"],
    .always (.posedge (.ident "clk"))
      [.cond (.ident "load")
        [.nonblocking (.ident "p") (.ident "a"), .nonblocking (.ident "q") (.ident "b")]
        [.nonblocking (.ident "p") (.ident "q"), .nonblocking (.ident "q") (.ident "p")]],
    .always (.posedge (.ident "clk"))
      [.nonblocking (.word "words" (.ident "p")) (.ident "p"),
        .nonblocking (.word "words" (.ident "p")) (.ident "q"),
        .nonblocking (.word "words" (.ident "q")) (.ident "q"),
        .nonblocking (.word "words" (.ident "nowhere")) (.ident "q")]]

/-- The exchange after its registers have been given values. -/
def exchangeLoaded : Simulator :=
  (elaborated exchange).run [.set "load" 1, .set "a" 1, .set "b" 6, .tick, .set "load" 0]

def exchangeUpdates : List Update :=
  [.register "p" (.ofNat 4 6), .register "q" (.ofNat 4 1), .word "words" 1 (.ofNat 4 1),
    .word "words" 1 (.ofNat 4 6), .word "words" 6 (.ofNat 4 6)]

/-- An edge at which all is carried out, and one that stops at its last update. -/
theorem edge_outcomes_exchange_torn :
    (exchangeLoaded.inputs.contains "clk" = true ∧
      Asks exchangeLoaded.environment (exchangeLoaded.rising (.posedge "clk")) exchangeUpdates ∧
      (∀ update ∈ exchangeUpdates, update.HasTarget exchangeLoaded) ∧
      (exchangeLoaded.perform (.posedge "clk")).1 = .ok () ∧
      (exchangeLoaded.perform (.posedge "clk")).2.registers.get? "p" = some (.ofNat 4 6) ∧
      (exchangeLoaded.perform (.posedge "clk")).2.registers.get? "q" = some (.ofNat 4 1) ∧
      (exchangeLoaded.perform (.posedge "clk")).2.arrays.get? "words" =
        some ⟨4, #[.x 4, .ofNat 4 6, .x 4, .x 4]⟩) ∧
    (((elaborated tornEdge).perform .tick).1 = .error (.unknownSignal "missing") ∧
      Commits [.register "q" (.x 6), .word "words" 0 (.x 6)] (elaborated tornEdge)
        ((elaborated tornEdge).perform .tick).2 ∧
      ((elaborated tornEdge).perform .tick).2.cycle = 0) := by
  constructor
  · have input : exchangeLoaded.inputs.contains "clk" = true := rfl
    have asks : Asks exchangeLoaded.environment (exchangeLoaded.rising (.posedge "clk"))
        exchangeUpdates := Statement.updatesAll_eq_ok_iff.mp rfl
    have targets : ∀ update ∈ exchangeUpdates, update.HasTarget exchangeLoaded := by decide
    obtain ⟨-, -, carried, -, -⟩ :=
      @edge_outcomes exchangeLoaded (.posedge "clk") rfl fun clock same => by
        cases same
        exact input
    obtain ⟨answers, commits⟩ := carried exchangeUpdates asks targets
    exact ⟨input, asks, targets, answers, commits.registers "p", commits.registers "q",
      (commits.arrays "words").trans (by decide +kernel)⟩
  · have asks : Asks (elaborated tornEdge).environment ((elaborated tornEdge).rising .tick)
        ([.register "q" (.x 6), .word "words" 0 (.x 6)] ++ .register "missing" (.x 6) :: []) :=
      Statement.updatesAll_eq_ok_iff.mp rfl
    obtain ⟨-, -, -, stopped, uncounted⟩ :=
      @edge_outcomes (elaborated tornEdge) .tick rfl fun clock same => by cases same
    obtain ⟨answers, commits⟩ := stopped _ _ _ asks (by decide) (by decide)
    exact ⟨answers, commits, uncounted _ answers⟩

end Simulator
end Multiport
