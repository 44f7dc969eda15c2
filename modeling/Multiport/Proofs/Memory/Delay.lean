import Mathlib.Data.List.Induction
import Multiport.Proofs.Memory.Layout
import Multiport.Proofs.Simulation.Evaluates
import Multiport.Proofs.Simulation.Instance

namespace Multiport

theorem Memory.Lane.updatesAll_captureBody_eq_ok_iff {environment : Environment}
    {register : String} {source : Expr} {updates : List Update} :
    Statement.updatesAll environment (captureBody (register, source)) = .ok updates ↔
      ∃ bits, source.eval environment = .ok bits ∧ updates = [.register register bits] := by
  simp only [captureBody, Statement.updatesAll, Statement.updates, Update.ofTarget]
  cases source.eval environment with
  | error error => simp
  | ok bits => simp [eq_comm]

namespace Simulator

/-- A register that takes over the value of an expression at each edge of a clock and that nothing
else assigns. -/
structure Captures (sim : Simulator) (clock : Signal) (register : String) (width : Nat)
    (source : Expr) : Prop where
  block : ∃ name before after, clock.expr = .ident name ∧
    sim.clocked = before ++ ⟨name, Memory.Lane.captureBody (register, source)⟩ :: after ∧
    ∀ block ∈ before ++ after, register ∉ Statement.assignedAll block.body
  free : sim.inputs.get? register = none
  holds : ∃ bits, sim.registers.get? register = some bits ∧ bits.width = width

/-- An operation that changes no register otherwise than by a successful edge, and that succeeds if
it is an edge of the clock. -/
def Proceeds (sim : Simulator) (clock : Signal) (operation : Operation) : Prop :=
  (sim.perform operation).1 = .ok () ∨
    operation.isEdgeOf clock = false ∧ (sim.perform operation).2.registers = sim.registers

theorem reading_register {sim : Simulator} {register : String} {bits : Bits}
    (free : sim.inputs.get? register = none)
    (found : sim.registers.get? register = some bits) (width : Nat) :
    sim.reading (.ident register width) = bits := by
  have held : sim.held? register = some bits := by simp [held?, free, found]
  exact reading_of_eval ((Evaluates.held held).eval (by decide))

/-- A register that no combinational block settles starts out unknown. -/
theorem reading_register_elaborated {module : Module} (distinct : module.names.Nodup) {width : Nat}
    {register : String} (declared : Declaration.reg width register ∈ module.declarations)
    (unsettled : register ∉ module.settledEntries.map Prod.fst) :
    (elaborated module).reading (.ident register width) = .x width :=
  reading_register ((simulates_elaborated module).inputs_of_declaration distinct declared)
    (Simulates.register_elaborated distinct declared unsettled) width

namespace Captures

variable {sim : Simulator} {clock : Signal} {register : String} {width : Nat} {source : Expr}

theorem alike (captures : sim.Captures clock register width source) {after : Simulator}
    (same : sim.Alike after) : after.Captures clock register width source where
  block := by
    rw [same.clocked]
    exact captures.block
  free := by
    have inputs := same.inputs register
    rwa [captures.free, Option.map_none, Option.map_eq_none_iff] at inputs
  holds := by
    obtain ⟨bits, found, wide⟩ := captures.holds
    have registers := same.registers register
    rw [found, Option.map_some, Option.map_eq_some_iff] at registers
    obtain ⟨now, present, sameWidth⟩ := registers
    exact ⟨now, present, sameWidth.trans wide⟩

theorem width_reading (captures : sim.Captures clock register width source) :
    (sim.reading (.ident register width)).width = width := by
  obtain ⟨bits, found, wide⟩ := captures.holds
  rw [reading_register captures.free found]
  exact wide

private theorem fire (captures : sim.Captures clock register width source)
    {operation : Operation} {next : Simulator}
    (fired : sim.fire operation.selects = (.ok (), next)) :
    next.registers.get? register =
      some (if operation.isEdgeOf clock then (sim.reading ⟨source, width⟩).resize width
        else sim.reading (.ident register width)) := by
  obtain ⟨name, before, after, clockName, blocks, silent⟩ := captures.block
  obtain ⟨bits, found, wide⟩ := captures.holds
  rw [Operation.isEdgeOf_eq_selects clockName]
  generalize operation.selects = selected at fired ⊢
  obtain ⟨each, -, rfl⟩ := fire_eq_ok_iff.mp fired
  have kept := fun list (inside : ∀ block ∈ list, block ∈ before ++ after) held =>
    ClockedBlock.foldl_onRegister_of_not_mem sim.environment
      (fun block (member : block ∈ list) => silent block (inside block member)) held
  have early := kept (before.filter fun block => selected block.clock)
    (fun block member => List.mem_append_left _ (List.mem_filter.mp member).1)
  have late := kept (after.filter fun block => selected block.clock)
    (fun block member => List.mem_append_right _ (List.mem_filter.mp member).1)
  rw [registers_foldl_applied, found, Option.map_some, reading_register captures.free found]
  by_cases rises : selected name = true
  · let block : ClockedBlock := ⟨name, Memory.Lane.captureBody (register, source)⟩
    have chosen : sim.selectedBlocks selected =
        (before.filter fun block => selected block.clock) ++
          block :: after.filter fun block => selected block.clock := by
      simp [selectedBlocks, blocks, rises, block]
    obtain ⟨demanded, success⟩ := each block (by simp [chosen])
    obtain ⟨value, evaluated, asks⟩ := Memory.Lane.updatesAll_captureBody_eq_ok_iff.mp success
    have asked : block.demands sim.environment = [.register register value] :=
      (ClockedBlock.demands_of_ok success).trans asks
    have captured : sim.reading ⟨source, width⟩ = value := reading_of_eval evaluated
    simp only [demands, chosen, List.flatMap_append, List.flatMap_cons, List.foldl_append, early,
      asked, late, List.foldl_cons, List.foldl_nil, Update.onRegister, rises, ↓reduceIte, wide,
      captured]
  · have chosen : sim.selectedBlocks selected =
        (before.filter fun block => selected block.clock) ++
          after.filter fun block => selected block.clock := by
      simp [selectedBlocks, blocks, rises]
    simp only [demands, chosen, List.flatMap_append, List.foldl_append, early, late, rises,
      Bool.false_eq_true, ↓reduceIte]

theorem perform (captures : sim.Captures clock register width source) {operation : Operation}
    (proceeds : sim.Proceeds clock operation) :
    (sim.perform operation).2.reading (.ident register width) =
      if operation.isEdgeOf clock then (sim.reading ⟨source, width⟩).resize width
      else sim.reading (.ident register width) := by
  have free := (captures.alike (alike_perform sim operation)).free
  obtain ⟨bits, found, -⟩ := captures.holds
  have unchanged : (sim.perform operation).2.registers = sim.registers →
      (sim.perform operation).2.reading (.ident register width) =
        sim.reading (.ident register width) := by
    intro same
    rw [reading_register free (same ▸ found), reading_register captures.free found]
  rcases proceeds with success | ⟨other, same⟩
  · by_cases edge : operation.isEdge = true
    · obtain ⟨next, count, fired, same⟩ := exists_fire_of_perform edge success
      have taken := captures.fire fired
      refine reading_register free ?_ width
      rw [same]
      exact taken
    · rw [if_neg fun own => edge (Operation.isEdge_of_isEdgeOf own)]
      exact unchanged (registers_perform (by simpa using edge))
  · rw [if_neg (by simp [other])]
    exact unchanged same

end Captures

/-- Runs in which every operation proceeds, each with its beginnings. -/
structure Steady (start : Simulator) (clock : Signal) (runs : List Operation → Prop) : Prop where
  beginning : ∀ operations operation, runs (operations ++ [operation]) → runs operations
  proceeds : ∀ operations operation, runs (operations ++ [operation]) →
    (start.run operations).Proceeds clock operation

variable {start : Simulator} {clock : Signal} {runs : List Operation → Prop}

/-- A register shows the value before the latest edge of what it captures. -/
theorem Captures.reading_run {register : String} {source : Expr} {signal : Signal} {count : Nat}
    (captures : start.Captures clock register signal.width source)
    (steady : start.Steady clock runs)
    (unknown : start.reading (.ident register signal.width) = .x signal.width)
    (sampled : ∀ operations, runs operations →
      (start.run operations).reading ⟨source, signal.width⟩ =
        start.sample operations clock count signal)
    (wide : ∀ operations, runs operations →
      (start.sample operations clock count signal).width = signal.width)
    (operations : List Operation) (inRuns : runs operations) :
    (start.run operations).reading (.ident register signal.width) =
      start.sample operations clock (count + 1) signal := by
  induction operations using List.reverseRecOn with
  | nil => exact unknown
  | append_singleton earlier operation ih =>
    have before := steady.beginning earlier operation inRuns
    have step := (captures.alike (alike_run start earlier)).perform
      (steady.proceeds earlier operation inRuns)
    rw [run_concat, step]
    by_cases edge : operation.isEdgeOf clock = true
    · rw [if_pos edge, sampled earlier before, Bits.resize_of_width_eq (wide earlier before),
        sample, sample, past?_concat_edge start _ edge]
    · have other : operation.isEdgeOf clock = false := by simpa using edge
      rw [if_neg edge, ih before, sample, sample, past?_concat_other start _ other]

private theorem reading_chain {signal : Signal} (steady : start.Steady clock runs)
    (registers : List String) {source : Expr} (count : Nat)
    (captures : ∀ capture ∈ Memory.Lane.capturesFrom source registers,
      start.Captures clock capture.1 signal.width capture.2)
    (unknown : ∀ register ∈ registers,
      start.reading (.ident register signal.width) = .x signal.width)
    (sampled : ∀ operations, runs operations →
      (start.run operations).reading ⟨source, signal.width⟩ =
        start.sample operations clock count signal)
    (wide : ∀ operations, runs operations →
      (start.sample operations clock count signal).width = signal.width)
    (operations : List Operation) (inRuns : runs operations) :
    (start.run operations).reading
        ⟨(registers.getLast?.map Expr.ident).getD source, signal.width⟩ =
      start.sample operations clock (count + registers.length) signal := by
  induction registers generalizing source count with
  | nil => exact sampled operations inRuns
  | cons register rest ih =>
    have first := captures (register, source) List.mem_cons_self
    have shows := first.reading_run steady (unknown register List.mem_cons_self) sampled wide
    have behind := ih (count + 1)
      (fun capture member => captures capture (List.mem_cons_of_mem _ member))
      (fun name member => unknown name (List.mem_cons_of_mem _ member)) shows
      (fun earlier inRuns => by
        rw [← shows earlier inRuns]
        exact (first.alike (alike_run start earlier)).width_reading)
    rw [Memory.Lane.last_cons, behind, List.length_cons]
    congr 1
    omega

end Simulator

/-- Behind a lane stands what went into it as many edges ago as it has registers. -/
theorem Memory.Lane.reading_output {start : Simulator} {clock : Signal}
    {runs : List Operation → Prop} (lane : Lane) (steady : start.Steady clock runs)
    (captures : ∀ capture ∈ lane.captures,
      start.Captures clock capture.1 lane.source.width capture.2)
    (unknown : ∀ register ∈ lane.registers,
      start.reading (.ident register lane.source.width) = .x lane.source.width)
    (wide : ∀ operations, runs operations →
      ((start.run operations).reading lane.source).width = lane.source.width)
    (operations : List Operation) (inRuns : runs operations) :
    (start.run operations).reading lane.output =
      start.sample operations clock lane.registers.length lane.source := by
  have whole := Simulator.reading_chain steady lane.registers 0 captures unknown
    (fun _ _ => rfl) wide operations inRuns
  rwa [Nat.zero_add] at whole

end Multiport
