import Multiport.Proofs.Simulation.Construction
import Multiport.Proofs.Simulation.Evaluates

/-! How far names are followed. The value of a signal is given by the values of the signals that it
is computed from, and a simulator follows these to a bounded depth. Where names can be ranked so that
what is read is ranked lower, the bound does not matter up to its own size: what is evaluated is the
one solution of all these equations. Where every driver of some nets needs another of them,
nothing is ever evaluated. -/
namespace Multiport

/-- The signals that an expression asks for whatever its conditionals decide: those outside their
branches. -/
def Expr.strictSignals : Expr → List String
  | number _ => []
  | ident name => [name]
  | word _ index => index.strictSignals
  | paren inner => inner.strictSignals
  | binary _ left right => left.strictSignals ++ right.strictSignals
  | cond condition _ _ => condition.strictSignals

/-- The outcome reports no loop. -/
def LoopFree {Value : Type} (outcome : Except SimulationError Value) : Prop :=
  ∀ name, outcome ≠ .error (.combinationalLoop name)

namespace LoopFree

theorem ok {Value : Type} (value : Value) : LoopFree (.ok value : Except SimulationError Value) :=
  fun _ found => by cases found

theorem bind {Value Result : Type} {first : Except SimulationError Value}
    {next : Value → Except SimulationError Result} (free : LoopFree first)
    (rest : ∀ value, LoopFree (next value)) : LoopFree (first >>= next) := by
  cases first with
  | ok value => exact rest value
  | error error => exact fun name found => free name (by simpa using found)

end LoopFree

namespace Expr

/-- An expression that has a value has one for each signal that it asks for in any case. -/
theorem exists_value_of_eval {environment : Environment} {expr : Expr} {bits : Bits}
    (evaluated : expr.eval environment = .ok bits) {name : String}
    (member : name ∈ expr.strictSignals) : ∃ value, environment.value name = .ok value := by
  induction expr generalizing bits with
  | number own => cases member
  | ident own =>
    obtain rfl := List.mem_singleton.mp member
    exact ⟨bits, evaluated⟩
  | word array index ih =>
    simp only [eval] at evaluated
    split at evaluated
    · cases evaluated
    · obtain ⟨address, indexed, -⟩ := bind_eq_ok_iff.mp evaluated
      exact ih indexed member
  | paren inner ih => exact ih evaluated member
  | binary op left right leftIh rightIh =>
    obtain ⟨leftBits, leftEvaluated, evaluated⟩ := bind_eq_ok_iff.mp evaluated
    obtain ⟨rightBits, rightEvaluated, -⟩ := bind_eq_ok_iff.mp evaluated
    rcases List.mem_append.mp member with inLeft | inRight
    · exact leftIh leftEvaluated inLeft
    · exact rightIh rightEvaluated inRight
  | cond condition onTrue onFalse conditionIh =>
    obtain ⟨decided, conditionEvaluated, -⟩ := bind_eq_ok_iff.mp evaluated
    exact conditionIh conditionEvaluated member

theorem loopFree_eval {environment : Environment} {expr : Expr}
    (free : ∀ name ∈ expr.signals, LoopFree (environment.value name)) :
    LoopFree (expr.eval environment) := by
  induction expr with
  | number bits => exact .ok bits
  | ident name => exact free name List.mem_cons_self
  | word array index ih =>
    simp only [eval]
    split
    · intro name found
      cases found
    · exact (ih free).bind fun address => .ok _
  | paren inner ih => exact ih free
  | binary op left right leftIh rightIh =>
    refine (leftIh fun name member => free name (List.mem_append_left _ member)).bind
      fun leftBits => ?_
    refine (rightIh fun name member => free name (List.mem_append_right _ member)).bind
      fun rightBits => ?_
    cases op with
    | equal => exact .ok _
    | and =>
      simp only
      split
      · exact .ok _
      · intro name found
        cases found
  | cond condition onTrue onFalse conditionIh trueIh falseIh =>
    have inCondition := conditionIh fun name member => free name
      (List.mem_append_left onFalse.signals (List.mem_append_left onTrue.signals member))
    have inTrue := trueIh fun name member => free name
      (List.mem_append_left onFalse.signals (List.mem_append_right condition.signals member))
    have inFalse := falseIh fun name member => free name (List.mem_append_right _ member)
    refine inCondition.bind fun decided => ?_
    split
    · exact inTrue
    · split
      · exact inFalse
      · refine inTrue.bind fun trueBits => inFalse.bind fun falseBits => ?_
        split
        · exact .ok _
        · intro name found
          cases found

end Expr

namespace Statement

mutual

/-- The signals whose value a statement of a combinational block may ask for. The index of a target
is not, and nothing is where the statement is refused. -/
def signals : Statement → List String
  | blocking _ value => value.signals
  | nonblocking _ _ => []
  | cond condition onTrue onFalse => condition.signals ++ (signalsAll onTrue ++ signalsAll onFalse)

/-- The signals whose value statements of a combinational block may ask for. -/
def signalsAll : List Statement → List String
  | [] => []
  | statement :: rest => statement.signals ++ signalsAll rest

end

private theorem eval_shadow_congr {first second : Environment} {expr : Expr}
    (arrays : first.arrays = second.arrays)
    (values : ∀ name ∈ expr.signals, first.value name = second.value name) (own : Table Bits) :
    expr.eval (first.shadow own) = expr.eval (second.shadow own) := by
  refine Expr.eval_congr_signals arrays fun name member => ?_
  simp only [Environment.shadow]
  cases own.get? name with
  | some bits => rfl
  | none => exact values name member

mutual

private theorem settle_congr {first second : Environment} (arrays : first.arrays = second.arrays) :
    ∀ (statement : Statement) (own : Table Bits),
      (∀ name ∈ statement.signals, first.value name = second.value name) →
      statement.settle first own = statement.settle second own
  | blocking target value, own, values => by
    simp only [settle, eval_shadow_congr arrays values]
  | nonblocking _ _, _, _ => rfl
  | cond condition onTrue onFalse, own, values => by
    have decides := eval_shadow_congr arrays
      (fun name member => values name (List.mem_append_left _ member)) own
    have inTrue := settleAll_congr arrays onTrue own fun name member =>
      values name (List.mem_append_right _ (List.mem_append_left _ member))
    have inFalse := settleAll_congr arrays onFalse own fun name member =>
      values name (List.mem_append_right _ (List.mem_append_right _ member))
    simp only [settle, decides, inTrue, inFalse]

/-- What a block settles depends on the arrays and on the signals that it may ask for. -/
theorem settleAll_congr {first second : Environment} (arrays : first.arrays = second.arrays) :
    ∀ (body : List Statement) (own : Table Bits),
      (∀ name ∈ signalsAll body, first.value name = second.value name) →
      settleAll first body own = settleAll second body own
  | [], _, _ => rfl
  | statement :: rest, own, values => by
    have here := settle_congr arrays statement own fun name member =>
      values name (List.mem_append_left _ member)
    have later := fun own => settleAll_congr arrays rest own fun name member =>
      values name (List.mem_append_right _ member)
    simp only [settleAll, here, later]

end

private theorem loopFree_eval_shadow {environment : Environment} {expr : Expr}
    (free : ∀ name ∈ expr.signals, LoopFree (environment.value name)) (own : Table Bits) :
    LoopFree (expr.eval (environment.shadow own)) := by
  refine Expr.loopFree_eval fun name member => ?_
  simp only [Environment.shadow]
  cases own.get? name with
  | some bits => exact .ok bits
  | none => exact free name member

mutual

private theorem loopFree_settle {environment : Environment} :
    ∀ (statement : Statement) (own : Table Bits),
      (∀ name ∈ statement.signals, LoopFree (environment.value name)) →
      LoopFree (statement.settle environment own)
  | blocking target value, own, free => by
    refine (loopFree_eval_shadow free own).bind fun bits => ?_
    split
    · exact .ok _
    · intro name found
      cases found
  | nonblocking _ _, _, _ => fun name found => by cases found
  | cond condition onTrue onFalse, own, free => by
    have inTrue := loopFree_settleAll onTrue own fun name member =>
      free name (List.mem_append_right _ (List.mem_append_left _ member))
    have inFalse := loopFree_settleAll onFalse own fun name member =>
      free name (List.mem_append_right _ (List.mem_append_right _ member))
    refine (loopFree_eval_shadow (fun name member =>
      free name (List.mem_append_left _ member)) own).bind fun decided => ?_
    split
    · exact inTrue
    · exact inFalse

theorem loopFree_settleAll {environment : Environment} :
    ∀ (body : List Statement) (own : Table Bits),
      (∀ name ∈ signalsAll body, LoopFree (environment.value name)) →
      LoopFree (settleAll environment body own)
  | [], _, _ => .ok _
  | statement :: rest, own, free => by
    have here := loopFree_settle statement own fun name member =>
      free name (List.mem_append_left _ member)
    exact here.bind fun own => loopFree_settleAll rest own fun name member =>
      free name (List.mem_append_right _ member)

end

end Statement

namespace Simulator

/-- The value of a signal in terms of the values of other signals. -/
def follow (sim : Simulator) (values : String → Except SimulationError Bits) (name : String) :
    Except SimulationError Bits :=
  let environment : Environment := ⟨sim.arrays.get?, values⟩
  match sim.held? name, sim.drivers.get? name, sim.settled.get? name, sim.widths.get? name with
  | some bits, _, _, _ => .ok bits
  | none, some driver, _, width? => do
      let bits ← driver.eval environment
      return (width?.map bits.resize).getD bits
  | none, none, some body, width? => do
      let values ← Statement.settleAll environment body .empty
      let width := width?.getD 0
      return ((values.get? name).map fun bits => bits.resize width).getD (.x width)
  | none, none, none, some width => .ok (.x width)
  | none, none, none, none => .error (.unknownSignal name)

/-- The values of signals when names are followed without a bound. -/
def Solves (sim : Simulator) (values : String → Except SimulationError Bits) : Prop :=
  ∀ name, values name = sim.follow values name

/-- The value of a signal that is reached through the given number of others. -/
def valueAt (sim : Simulator) (nesting : Nat) (name : String) : Except SimulationError Bits :=
  sim.valueWithin (maxDepth + 1 - nesting) name

variable {sim : Simulator}

theorem valueWithin_succ (depth : Nat) (name : String) :
    sim.valueWithin (depth + 1) name = sim.follow (sim.valueWithin depth) name := rfl

theorem valueAt_of_lt {nesting : Nat} (deep : maxDepth < nesting) (name : String) :
    sim.valueAt nesting name = .error (.combinationalLoop name) := by
  rw [valueAt, Nat.sub_eq_zero_of_le deep]
  rfl

theorem valueAt_of_le {nesting : Nat} (near : nesting ≤ maxDepth) (name : String) :
    sim.valueAt nesting name = sim.follow (sim.valueAt (nesting + 1)) name := by
  have deeper : sim.valueAt (nesting + 1) = sim.valueWithin (maxDepth - nesting) := by
    funext other
    rw [valueAt, Nat.add_sub_add_right]
  rw [deeper, valueAt, Nat.sub_add_comm near, valueWithin_succ]

/-- Names are ranked so that what a name is computed from is ranked lower: what its driver may ask
for, or else its block. Inputs and clocked registers hold their values and may have any rank, even
if they are driven or stand in a block. -/
structure Ranked (sim : Simulator) (rank : String → Nat) : Prop where
  driven : ∀ name driver, sim.held? name = none → sim.drivers.get? name = some driver →
    ∀ read ∈ driver.signals, rank read < rank name
  settled : ∀ name body, sim.held? name = none → sim.drivers.get? name = none →
    sim.settled.get? name = some body →
    ∀ read ∈ Statement.signalsAll body, rank read < rank name

theorem ranked_iff {rank : String → Nat} :
    sim.Ranked rank ↔
      (∀ entry ∈ sim.drivers.entries, sim.held? entry.1 = none →
        ∀ read ∈ entry.2.signals, rank read < rank entry.1) ∧
      ∀ entry ∈ sim.settled.entries, sim.held? entry.1 = none →
        sim.drivers.get? entry.1 = none →
        ∀ read ∈ Statement.signalsAll entry.2, rank read < rank entry.1 := by
  constructor
  · intro ranked
    refine ⟨fun entry member free => ?_, fun entry member free undriven => ?_⟩
    · exact ranked.driven _ _ free (Table.get?_eq_some_iff.mpr member)
    · exact ranked.settled _ _ free undriven (Table.get?_eq_some_iff.mpr member)
  · rintro ⟨driven, settled⟩
    refine ⟨fun name driver free found => ?_, fun name body free undriven found => ?_⟩
    · exact driven (name, driver) (Table.get?_eq_some_iff.mp found) free
    · exact settled (name, body) (Table.get?_eq_some_iff.mp found) free undriven

instance (sim : Simulator) (rank : String → Nat) : Decidable (sim.Ranked rank) :=
  decidable_of_iff _ ranked_iff.symm

/-- A value that is not held depends on those of the signals that its driver may ask for, or else
its block. -/
theorem follow_congr (sim : Simulator) {first second : String → Except SimulationError Bits}
    {name : String}
    (driven : ∀ driver, sim.held? name = none → sim.drivers.get? name = some driver →
      ∀ read ∈ driver.signals, first read = second read)
    (settled : ∀ body, sim.held? name = none → sim.drivers.get? name = none →
      sim.settled.get? name = some body →
      ∀ read ∈ Statement.signalsAll body, first read = second read) :
    sim.follow first name = sim.follow second name := by
  unfold follow
  split
  · rfl
  · rename_i driver free found
    have same : driver.eval ⟨sim.arrays.get?, first⟩ = driver.eval ⟨sim.arrays.get?, second⟩ :=
      Expr.eval_congr_signals rfl (driven driver free found)
    simp only [same]
  · rename_i body free undriven found
    have same : Statement.settleAll ⟨sim.arrays.get?, first⟩ body .empty =
        Statement.settleAll ⟨sim.arrays.get?, second⟩ body .empty := by
      refine Statement.settleAll_congr ?_ body .empty (settled body free undriven found)
      rfl
    simp only [same]
  · rfl
  · rfl

namespace Ranked

variable {rank : String → Nat}

theorem follow_congr (ranked : sim.Ranked rank) {first second : String → Except SimulationError Bits}
    {name : String} (lower : ∀ read, rank read < rank name → first read = second read) :
    sim.follow first name = sim.follow second name :=
  sim.follow_congr
    (fun driver free found read member =>
      lower read (ranked.driven name driver free found read member))
    fun body free undriven found read member =>
      lower read (ranked.settled name body free undriven found read member)

theorem loopFree_follow (ranked : sim.Ranked rank)
    {values : String → Except SimulationError Bits} {name : String}
    (lower : ∀ read, rank read < rank name → LoopFree (values read)) :
    LoopFree (sim.follow values name) := by
  unfold follow
  split
  · exact .ok _
  · rename_i driver free found
    refine (Expr.loopFree_eval fun read member => ?_).bind fun bits => .ok _
    exact lower read (ranked.driven name driver free found read member)
  · rename_i body free undriven found
    refine (Statement.loopFree_settleAll body .empty fun read member => ?_).bind fun own => .ok _
    exact lower read (ranked.settled name body free undriven found read member)
  · exact .ok _
  · intro other found
    cases found

/-- Depths beyond the rank of a name make no difference to its value. -/
theorem valueWithin_eq (ranked : sim.Ranked rank) {depth other : Nat} {name : String}
    (enough : rank name < depth) (enoughToo : rank name < other) :
    sim.valueWithin depth name = sim.valueWithin other name := by
  induction depth generalizing other name with
  | zero => omega
  | succ depth ih =>
    obtain ⟨other, rfl⟩ : ∃ less, other = less + 1 := ⟨other - 1, by omega⟩
    rw [valueWithin_succ, valueWithin_succ]
    exact ranked.follow_congr fun read lower => ih (by omega) (by omega)

/-- The values without a bound: each is found within one more than its rank. -/
theorem solves (ranked : sim.Ranked rank) :
    sim.Solves fun name => sim.valueWithin (rank name + 1) name := by
  intro name
  exact ranked.follow_congr fun read lower => ranked.valueWithin_eq lower (Nat.lt_succ_self _)

theorem eq_of_solves (ranked : sim.Ranked rank)
    {first second : String → Except SimulationError Bits} (firstSolves : sim.Solves first)
    (secondSolves : sim.Solves second) : first = second := by
  have upTo : ∀ bound name, rank name < bound → first name = second name := by
    -- rank by rank: both solutions compute a name from names that they agree on
    intro bound
    induction bound with
    | zero => exact fun name below => absurd below (Nat.not_lt_zero _)
    | succ bound ih =>
      intro name below
      rw [firstSolves, secondSolves]
      exact ranked.follow_congr fun read lower => ih read (by omega)
  funext name
  exact upTo (rank name + 1) name (Nat.lt_succ_self _)

theorem loopFree_valueWithin (ranked : sim.Ranked rank) {depth : Nat} {name : String}
    (enough : rank name < depth) : LoopFree (sim.valueWithin depth name) := by
  induction depth generalizing name with
  | zero => omega
  | succ depth ih => exact ranked.loopFree_follow fun read lower => ih (by omega)

end Ranked

/-- Nets each of whose drivers needs one of them have no value at any depth. -/
theorem valueWithin_ne_ok_of_looped {looped : String → Prop}
    (needs : ∀ name, looped name → sim.held? name = none ∧ ∃ driver,
      sim.drivers.get? name = some driver ∧ ∃ read ∈ driver.strictSignals, looped read)
    (depth : Nat) {name : String} (inLoop : looped name) (bits : Bits) :
    sim.valueWithin depth name ≠ .ok bits := by
  induction depth generalizing name bits with
  | zero => exact fun found => by cases found
  | succ depth ih =>
    -- A value would need the value of another net of the loop, one level deeper.
    obtain ⟨free, driver, driven, read, member, readLooped⟩ := needs name inLoop
    intro found
    simp only [valueWithin, free, driven] at found
    obtain ⟨value, evaluated, -⟩ := bind_eq_ok_iff.mp found
    obtain ⟨own, readFound⟩ := Expr.exists_value_of_eval evaluated member
    exact ih readLooped own readFound

/-- States in which the same is found under every name have the same values. -/
theorem valueWithin_congr {first second : Simulator} (held : second.held? = first.held?)
    (arrays : second.arrays.get? = first.arrays.get?)
    (drivers : second.drivers.get? = first.drivers.get?)
    (settled : second.settled.get? = first.settled.get?)
    (widths : second.widths.get? = first.widths.get?) (depth : Nat) :
    second.valueWithin depth = first.valueWithin depth := by
  induction depth with
  | zero => rfl
  | succ depth ih =>
    funext name
    simp only [valueWithin_succ, follow, held, arrays, drivers, settled, widths, ih]

/-- States in which the same is found under every name evaluate all expressions alike. -/
theorem environment_congr {first second : Simulator} (held : second.held? = first.held?)
    (arrays : second.arrays.get? = first.arrays.get?)
    (drivers : second.drivers.get? = first.drivers.get?)
    (settled : second.settled.get? = first.settled.get?)
    (widths : second.widths.get? = first.widths.get?) :
    second.environment = first.environment := by
  have values : ∀ depth, second.valueWithin depth = first.valueWithin depth :=
    valueWithin_congr held arrays drivers settled widths
  have signals : second.get = first.get := by
    funext name
    rw [get, get, values]
  rw [environment, environment, arrays, signals]

/-- Where names can be ranked along what is read, every name of a rank within the bound has the value
that it has when names are followed without a bound, from each nesting that leaves room for its
rank, and no loop is reported. Nets of which each needs another outside the branches of
conditionals never have a value. -/
theorem ranks_followed_and_loops_refused (sim : Simulator) :
    (∀ rank, sim.Ranked rank →
      ∃ values, sim.Solves values ∧ (∀ others, sim.Solves others → others = values) ∧
        (∀ name, LoopFree (values name)) ∧
        ∀ name, rank name ≤ maxDepth →
          LoopFree (sim.get name) ∧ sim.get name = values name ∧
            ∀ nesting, nesting + rank name ≤ maxDepth →
              sim.valueAt nesting name = sim.get name) ∧
    ∀ looped : String → Prop,
      (∀ name, looped name → sim.held? name = none ∧ ∃ driver,
        sim.drivers.get? name = some driver ∧ ∃ read ∈ driver.strictSignals, looped read) →
      ∀ name, looped name → ∀ bits, sim.get name ≠ .ok bits := by
  constructor
  · intro rank ranked
    refine ⟨_, ranked.solves, fun others solves => ranked.eq_of_solves solves ranked.solves,
      fun name => ranked.loopFree_valueWithin (Nat.lt_succ_self _), fun name bound => ?_⟩
    have enough : rank name < maxDepth + 1 := Nat.lt_succ_of_le bound
    refine ⟨ranked.loopFree_valueWithin enough,
      ranked.valueWithin_eq enough (Nat.lt_succ_self _), fun nesting room => ?_⟩
    exact ranked.valueWithin_eq (by omega) enough
  · exact fun looped needs name inLoop => valueWithin_ne_ok_of_looped needs _ inLoop

/-- A net behind a register of a block behind another net. -/
def ladder : Module where
  name := "ladder"
  ports := [.input 1 "sel", .input 2 "a", .output 2 "y"]
  body := [.declarations [.net 2 "p", .reg 2 "h", .array 2 2 "words"],
    .assigns [⟨.ident "y", .cond (.ident "sel") (.ident "h") (.x 2)⟩,
      ⟨.ident "p", .binary .and (.ident "a") (.word "words" (.ident "sel"))⟩],
    .always .anyChange [.cond (.ident "sel") [.blocking (.ident "h") (.ident "p")] []]]

def ladderSet : Simulator :=
  (elaborated ladder).run [.set "sel" 1, .set "a" 2, .setMemory "words" 1 3]

/-- A clocked register that is also driven by a net that reads it. -/
def feedback : Module where
  name := "feedback"
  ports := [.input 1 "clk", .input 1 "d"]
  body := [.declarations [.reg 1 "q", .net 1 "y"],
    .assigns [⟨.ident "q", .ident "y"⟩, ⟨.ident "y", .ident "q"⟩],
    .always (.posedge (.ident "clk")) [.nonblocking (.ident "q") (.ident "d")]]

def feedbackSet : Simulator := (elaborated feedback).run [.set "d" 1, .tick]

/-- Two nets that need each other, one of them to decide a conditional. -/
def ring : Module where
  name := "ring"
  ports := [.input 1 "a"]
  body := [.declarations [.net 1 "p", .net 1 "q"],
    .assigns [⟨.ident "p", .binary .and (.ident "a") (.ident "q")⟩,
      ⟨.ident "q", .cond (.ident "p") (.ident "a") (.ident "a")⟩]]

/-- A net behind a block, a register that its own driver reads, and two nets in a ring. -/
theorem ranks_followed_and_loops_refused_ladder_feedback_ring :
    (∃ rank, ladderSet.Ranked rank ∧ rank "y" = 3 ∧
      LoopFree (ladderSet.get "y") ∧ ladderSet.get "y" = .ok (.ofNat 2 2) ∧
      ladderSet.valueAt (maxDepth - 3) "y" = .ok (.ofNat 2 2)) ∧
    (∃ rank, feedbackSet.Ranked rank ∧ rank "q" = 0 ∧ rank "y" = 1 ∧
      LoopFree (feedbackSet.get "y") ∧ feedbackSet.get "y" = .ok (.ofNat 1 1)) ∧
    ((∀ name, name = "p" ∨ name = "q" → (elaborated ring).held? name = none ∧ ∃ driver,
      (elaborated ring).drivers.get? name = some driver ∧
        ∃ read ∈ driver.strictSignals, read = "p" ∨ read = "q") ∧
      ∀ bits, (elaborated ring).get "p" ≠ .ok bits) := by
  refine ⟨?_, ?_, ?_⟩
  · let rank : String → Nat := fun name =>
      if name = "p" then 1 else if name = "h" then 2 else if name = "y" then 3 else 0
    have ranked : ladderSet.Ranked rank := by decide
    have shown : ladderSet.get "y" = .ok (.ofNat 2 2) := rfl
    obtain ⟨values, -, -, -, within⟩ := (ranks_followed_and_loops_refused ladderSet).1 rank ranked
    obtain ⟨free, -, nested⟩ := within "y" (by decide)
    exact ⟨rank, ranked, rfl, free, shown, (nested (maxDepth - 3) (by decide)).trans shown⟩
  · let rank : String → Nat := fun name => if name = "y" then 1 else 0
    have ranked : feedbackSet.Ranked rank := by decide
    obtain ⟨values, -, -, -, within⟩ :=
      (ranks_followed_and_loops_refused feedbackSet).1 rank ranked
    exact ⟨rank, ranked, rfl, rfl, (within "y" (by decide)).1, rfl⟩
  · have needs : ∀ name, name = "p" ∨ name = "q" → (elaborated ring).held? name = none ∧
        ∃ driver, (elaborated ring).drivers.get? name = some driver ∧
          ∃ read ∈ driver.strictSignals, read = "p" ∨ read = "q" := by
      rintro name (rfl | rfl)
      · exact ⟨rfl, _, rfl, "q", by decide, .inr rfl⟩
      · exact ⟨rfl, _, rfl, "p", by decide, .inl rfl⟩
    exact ⟨needs, (ranks_followed_and_loops_refused (elaborated ring)).2 _ needs "p" (.inl rfl)⟩

end Simulator
end Multiport
