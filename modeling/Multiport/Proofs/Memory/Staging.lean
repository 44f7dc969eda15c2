import Multiport.Proofs.Draft.Sections
import Multiport.Proofs.Memory.Chain

/-! Delaying any signal in any module. While a module is built a signal is delayed by edges of a
clock, and more is built afterwards. What comes out is the signal as it was before exactly as many
edges; and everything else is worth what it is worth in the module built without the delay. -/
namespace Multiport

theorem Item.Scoped.reads {outputs known : List String} {items : List Item}
    (inScope : Item.Scoped outputs known items) {item : Item} (member : item ∈ items) :
    ∀ name ∈ item.reads, name ∈ known ++ Item.declaredNames items := by
  obtain ⟨before, after, place⟩ := List.append_of_mem member
  intro name asked
  rcases (inScope.split place).1 name asked with start | declared
  · exact List.mem_append_left _ start
  · rw [place, Item.declaredNames_append]
    exact List.mem_append_right _ (List.mem_append_left _ declared)

namespace ModuleDraft

variable {draft next last : ModuleDraft} {scope : Scope} {signal clock delayed : Signal}
  {stages : Nat} {ports : List Port} {calls : List DraftCall} {replies : List DraftReply}
  {module : Module}

/-- The names of a finished module are distinct if those of its ports are. -/
theorem Accounts.nodup_names (accounts : draft.Accounts ports)
    (distinct : (ports.map Port.name).Nodup) (finished : draft.finish = .ok module) :
    module.names.Nodup := by
  obtain ⟨-, samePorts, sameItems⟩ := of_finish finished
  have declared : module.declarations.map Declaration.name = Item.declaredNames draft.items :=
    congrArg Item.declaredNames sameItems
  rw [Module.names, samePorts, accounts.given, declared]
  exact List.nodup_append.mpr ⟨distinct, accounts.distinct, fun name isPort other member same =>
    accounts.apart other member (same ▸ isPort)⟩

/-- Delaying a signal builds a lane whose registers have free names. -/
theorem exists_lane (staged : draft.delay scope signal clock stages = (delayed, next)) :
    ∃ registers wanted, registers.length = stages ∧
      delayed = Memory.Lane.output ⟨signal, registers⟩ ∧
      draft.Extends next wanted (Memory.Lane.items ⟨signal, registers⟩ clock.expr) ∧
      ∀ register ∈ registers, register ∈ next.names ∧ register ∉ draft.names := by
  obtain ⟨registers, after, length, delays, extended⟩ :=
    Memory.extends_delay draft scope signal clock stages
  cases delays.symm.trans staged
  have fresh : registers = freshNames draft.names (Memory.laneNames scope stages) := by
    rw [← extended.declared, Memory.Lane.declared_items]
    simp [Memory.Lane.declarations, Function.comp_def, Declaration.reg]
  refine ⟨registers, _, length, rfl, extended, fun register member => ⟨?_, ?_⟩⟩
  · rw [extended.names, ← fresh]
    exact List.mem_append_left _ (List.mem_reverse.mpr member)
  · exact (freshNames_apart _ _).2 register (fresh ▸ member)

/-- The lane stands in the finished module between what was built before and after. -/
theorem standsIn_of_extends {lane : Memory.Lane} {wanted : List String} {name : String}
    (accounts : draft.Accounts ports) (distinct : (ports.map Port.name).Nodup)
    (named : clock.expr = .ident name)
    (extended : draft.Extends next wanted (lane.items clock.expr))
    (continued : next.run calls = .ok (replies, last)) (finished : last.finish = .ok module)
    (alone : ∀ register ∈ lane.registers,
      ∀ item ∈ draft.items ++ DraftTrace.contributions ports (calls.zip replies),
        register ∉ item.assigned) :
    lane.StandsIn name draft.items (DraftTrace.contributions ports (calls.zip replies)) module where
  items := by
    rw [(of_finish finished).2.2, (answered_of_run continued).items (accounts.of_extends extended),
      extended.items, named]
  distinct := ((accounts.of_extends extended).run continued).nodup_names distinct finished
  alone := alone

/-- Calls that can be made after a signal was delayed leave the same sections open without it. -/
theorem finish_without {plainLast : ModuleDraft} {wanted : List String} {added : List Item}
    (accounts : draft.Accounts ports) (extended : draft.Extends next wanted added)
    (continued : next.run calls = .ok (replies, last)) (finished : last.finish = .ok module)
    (without : draft.run calls = .ok (replies, plainLast)) :
    ∃ plain, plainLast.finish = .ok plain ∧ plain.ports = ports ∧
      plain.items = draft.items ++ DraftTrace.contributions ports (calls.zip replies) := by
  have sameDepth := congrArg List.length extended.sections
  simp only [List.length_map] at sameDepth
  have depth := depth_run continued
  have plainDepth := depth_run without
  rw [(of_finish finished).1, List.length_nil] at depth
  have closed : plainLast.sections = [] := List.eq_nil_of_length_eq_zero (by omega)
  obtain ⟨plain, done, -, samePorts, items⟩ := finish_of_sections_eq_nil closed
  refine ⟨plain, done, samePorts.trans (accounts.run without).given, items.trans ?_⟩
  exact (answered_of_run without).items accounts

/-- Whatever was built before and is built after, a signal that can always be evaluated to its width
is delayed by exactly as many edges of the clock as were asked for: in a run in which all edges
succeed, the delayed signal is unknown after fewer edges, and otherwise has the value that the
signal had just before that many of them, the latest counted first. In the module without the
delay, which is built by the same calls, all names and all words of arrays have the same values, in
every run. -/
theorem delay_exact_and_unnoticed {name rising : String} (distinct : (ports.map Port.name).Nodup)
    {before after : List DraftCall} {later : List DraftReply} {start : Simulator}
    (built : (ModuleDraft.start name ports).run before = .ok (replies, draft))
    (staged : draft.delay scope signal clock stages = (delayed, next))
    (continued : next.run after = .ok (later, last)) (finished : last.finish = .ok module)
    (started : Simulator.ofModule module = .ok start)
    (named : clock.expr = .ident rising)
    (computes : ∀ operations, ∃ bits,
      signal.expr.eval (start.run operations).environment = .ok bits ∧ bits.width = signal.width)
    (alone : ∀ register ∈ next.names, register ∉ draft.names →
      ∀ item ∈ draft.items ++ DraftTrace.contributions ports (after.zip later),
        register ∉ item.assigned) :
    (∀ operations, start.EdgesSucceed operations →
      ((start.edges clock operations).length < stages →
        delayed.expr.eval (start.run operations).environment = .ok (.x signal.width)) ∧
      (stages ≤ (start.edges clock operations).length →
        ∃ past, start.past? clock operations stages = some past ∧
          delayed.expr.eval (start.run operations).environment =
            signal.expr.eval past.environment)) ∧
    (∀ plainLast, draft.run after = .ok (later, plainLast) →
      ∃ plain, plainLast.finish = .ok plain ∧ plain.ports = ports ∧
        plain.items = draft.items ++ DraftTrace.contributions ports (after.zip later)) ∧
    ∀ plain : Module, plain.ports = ports →
      plain.items = draft.items ++ DraftTrace.contributions ports (after.zip later) →
      Item.Scoped [] (ports.map Port.name) plain.items →
      ∃ plainStart, Simulator.ofModule plain = .ok plainStart ∧ ∀ operations,
        (∀ known ∈ plain.names,
          (start.run operations).get known = (plainStart.run operations).get known) ∧
        ∀ array address,
          (start.run operations).memory array address =
            (plainStart.run operations).memory array address := by
  have accounts := (accounts_start name ports).run built
  obtain ⟨registers, wanted, length, rfl, extended, free⟩ := exists_lane staged
  obtain ⟨runs, rfl⟩ := Simulator.ofModule_eq_ok_iff.mp started
  have stands := standsIn_of_extends accounts distinct named extended continued finished
    fun register inLane => alone register (free register inLane).1 (free register inLane).2
  refine ⟨fun operations succeed => ?_, fun plainLast without => ?_,
    fun plain samePorts items inScope => ?_⟩
  · exact length ▸ stands.eval_output_cases named computes succeed
  · exact finish_without accounts extended continued finished without
  · refine ⟨_, Simulator.ofModule_eq_ok_iff.mpr ⟨stands.supported items runs, rfl⟩,
      fun operations => ?_⟩
    have given : plain.ports = module.ports := by
      rw [samePorts, (of_finish finished).2.1,
        ((accounts.of_extends extended).run continued).given]
    have names : plain.names = ports.map Port.name ++ Item.declaredNames plain.items := by
      rw [Module.names, samePorts]
      rfl
    -- What is known without the delay is no register of it, since all names are distinct with it.
    have watched := stands.watched_elaborated given items fun item member read asked inLane =>
      stands.not_mem_names given items inLane (names ▸ inScope.reads member read asked)
    have state := Simulator.simulates_elaborated module
    have unnoticed := watched.run (fun operations block member => by
      obtain ⟨bits, evaluated, -⟩ := computes operations
      exact stands.watches (state.run operations) ⟨bits, evaluated⟩ block member) operations
    exact ⟨fun known inPlain => unnoticed.agrees.get unnoticed.ignores fun inLane =>
      stands.not_mem_names given items inLane inPlain, unnoticed.agrees.memory⟩

/-- What is built before a signal is delayed: a register whose name the delay would take. -/
def compareCalls : List DraftCall :=
  [.declare (Scope.top.enter "s") "d0" (.reg 4),
    .clocked (.ident "clk" 1) [.nonblocking (.ident "s_d0") (.ident "a")]]

/-- Whether two inputs are equal. -/
def compared : Signal := ⟨.combine .equal (.ident "a") (.ident "b"), 1⟩

def driveCalls : List DraftCall :=
  [.driveOutputs [⟨.combine .equal (.ident "s_d0") (.ident "b"), 1⟩]]

/-- The module in which the comparison is delayed by two edges. -/
def comparison : Module where
  name := "comparison"
  ports := [.input 1 "clk", .input 4 "a", .input 4 "b", .output 1 "same"]
  body := [.declarations [.reg 4 "s_d0"],
    .always (.posedge (.ident "clk")) [.nonblocking (.ident "s_d0") (.ident "a")],
    .declarations [.reg 1 "s_d0_1"],
    .always (.posedge (.ident "clk"))
      [.nonblocking (.ident "s_d0_1") (.combine .equal (.ident "a") (.ident "b"))],
    .declarations [.reg 1 "s_d1"],
    .always (.posedge (.ident "clk")) [.nonblocking (.ident "s_d1") (.ident "s_d0_1")],
    .assigns [⟨.ident "same", .combine .equal (.ident "s_d0") (.ident "b")⟩]]

def comparisonPlain : Module where
  name := "comparison"
  ports := comparison.ports
  body := [.declarations [.reg 4 "s_d0"],
    .always (.posedge (.ident "clk")) [.nonblocking (.ident "s_d0") (.ident "a")],
    .assigns [⟨.ident "same", .combine .equal (.ident "s_d0") (.ident "b")⟩]]

theorem eval_compared (operations : List Operation) :
    ∃ bits, compared.expr.eval ((Simulator.elaborated comparison).run operations).environment =
      .ok bits ∧ bits.width = compared.width := by
  have state := (Simulator.simulates_elaborated comparison).run operations
  have distinct : comparison.names.Nodup := by decide
  have held : ∀ port ∈ comparison.inputs, ∃ bits,
      ((Simulator.elaborated comparison).run operations).Evaluates 1 (.ident port.name) bits := by
    intro port given
    obtain ⟨bits, found, -⟩ := state.input distinct given
    exact ⟨bits, .held (by simp [Simulator.held?, found])⟩
  obtain ⟨left, leftIs⟩ := held (.input 4 "a") (by decide)
  obtain ⟨right, rightIs⟩ := held (.input 4 "b") (by decide)
  exact ⟨_, (leftIs.equal rightIs).eval (by decide), Bits.width_eqArith left right⟩

/-- A run with two edges, before the first of which the inputs are equal. -/
def comparisonRun : List Operation :=
  [.set "a" 3, .set "b" 3, .tick, .set "a" 1, .set "nothing" 0, .posedge "clk"]

theorem delay_exact_and_unnoticed_comparison :
    ∃ draft next last start plainStart,
      (ModuleDraft.start "comparison" comparison.ports).run compareCalls =
        .ok ([.declared (.signal (.ident "s_d0" 4)), .done], draft) ∧
      draft.delay (Scope.top.enter "s") compared (.ident "clk" 1) 2 = (.ident "s_d1" 1, next) ∧
      next.run driveCalls = .ok ([.done], last) ∧ last.finish = .ok comparison ∧
      Simulator.ofModule comparison = .ok start ∧ start.EdgesSucceed comparisonRun ∧
      (start.edges (.ident "clk" 1) comparisonRun).length = 2 ∧
      start.get "s_d1" = .ok (.x 1) ∧
      (start.run comparisonRun).get "s_d1" = .ok (.ofNat 1 1) ∧
      Simulator.ofModule comparisonPlain = .ok plainStart ∧
      (start.run comparisonRun).get "same" = (plainStart.run comparisonRun).get "same" := by
  let draft : ModuleDraft :=
    ⟨"comparison", comparison.ports, (comparison.body.take 2).toArray, [],
      ["s_d0", "clk", "a", "b", "same"]⟩
  let next : ModuleDraft :=
    { draft with
      finished := (comparison.body.take 6).toArray
      names := ["s_d1", "s_d0_1"] ++ draft.names }
  let last : ModuleDraft := { next with finished := comparison.body.toArray }
  have built : (ModuleDraft.start "comparison" comparison.ports).run compareCalls =
      .ok ([.declared (.signal (.ident "s_d0" 4)), .done], draft) := rfl
  have staged : draft.delay (Scope.top.enter "s") compared (.ident "clk" 1) 2 =
      (.ident "s_d1" 1, next) := rfl
  have continued : next.run driveCalls = .ok ([.done], last) := rfl
  have finished : last.finish = .ok comparison := rfl
  have started : Simulator.ofModule comparison = .ok (Simulator.elaborated comparison) := rfl
  have alone : ∀ register ∈ next.names, register ∉ draft.names → ∀ item ∈ draft.items ++
      DraftTrace.contributions comparison.ports (driveCalls.zip [.done]),
        register ∉ item.assigned := by decide +kernel
  obtain ⟨delays, -, unnoticed⟩ := delay_exact_and_unnoticed (by decide) built staged continued
    finished started rfl eval_compared alone
  have succeed : (Simulator.elaborated comparison).EdgesSucceed comparisonRun :=
    ⟨nofun, nofun, fun _ => rfl, nofun, nofun, fun _ => rfl, trivial⟩
  have inScope : Item.Scoped [] (comparison.ports.map Port.name) comparisonPlain.items :=
    ⟨by decide, by decide, by decide, by decide, by decide, by decide, trivial⟩
  obtain ⟨past, isPast, shown⟩ := (delays comparisonRun succeed).2 (by decide)
  obtain ⟨plainStart, plainStarted, alike⟩ := unnoticed comparisonPlain rfl rfl inScope
  refine ⟨draft, next, last, _, plainStart, built, staged, continued, finished, started, succeed,
    rfl, (delays [] trivial).1 (by decide), shown.trans ?_, plainStarted,
    (alike comparisonRun).1 "same" (by decide)⟩
  obtain rfl := Option.some.inj isPast
  rfl

end ModuleDraft
end Multiport
