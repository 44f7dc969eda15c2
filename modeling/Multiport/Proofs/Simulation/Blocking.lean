import Mathlib.Data.List.Induction
import Multiport.Proofs.Logic.Number
import Multiport.Proofs.Simulation.Following
import Multiport.Proofs.Simulation.Instance

/-! Blocking assignments at work. A run of a combinational block evaluates one expression after
another; each finds the registers assigned before it with the last values given, at whatever width
these have. Only a value that is asked for from outside the block is cut or extended to the width
that the register is declared with, so a register that is copied inside its block may give bits that
it does not show outside. -/
namespace Multiport

namespace Bits

/-- To pass through a first width changes what arrives at a second exactly if a bit is cut off that
the second has room for. -/
theorem resize_resize_eq_iff (bits : Bits) (first second : Nat) :
    (bits.resize first).resize second = bits.resize second ↔
      ∀ index, first ≤ index → index < second → bits.toList.getD index .zero = .zero := by
  have through : ∀ index, (bits.resize first).toList.getD index .zero =
      if index < first then bits.toList.getD index .zero else .zero := by
    intro index
    rw [List.getD_eq_getElem?_getD, getElem?_resize]
    split <;> rfl
  constructor
  · intro same index past inside
    have bit : ((bits.resize first).resize second).toList[index]? =
        (bits.resize second).toList[index]? := by rw [same]
    rw [getElem?_resize, getElem?_resize, if_pos inside, if_pos inside, through,
      if_neg (Nat.not_lt.mpr past)] at bit
    exact (Option.some.inj bit).symm
  · intro zero
    refine ext_getElem? fun index => ?_
    rw [getElem?_resize, getElem?_resize, through]
    by_cases inside : index < second
    · by_cases before : index < first
      · rw [if_pos before]
      · rw [if_neg before, zero index (Nat.not_lt.mp before) inside]
    · rw [if_neg inside, if_neg inside]

end Bits

/-- One evaluation in a run of a combinational block: an expression, its value, and the register
that the value is given to. A condition gives its value to none. -/
structure Evaluated where
  target? : Option String
  expr : Expr
  bits : Bits
deriving DecidableEq, Repr

/-- The last value given to a register. -/
def lastGiven (steps : List Evaluated) (name : String) : Option Bits :=
  steps.reverse.findSome? fun step => if step.target? = some name then some step.bits else none

/-- What expressions are worth after the given steps of a block. -/
def Environment.following (environment : Environment) (steps : List Evaluated) : Environment where
  arrays := environment.arrays
  value name :=
    match lastGiven steps name with
    | some bits => .ok bits
    | none => environment.value name

/-- A combinational block takes steps, after those taken before it. Of a conditional the branch that
is taken stands before the rest. -/
inductive Runs (environment : Environment) :
    List Evaluated → List Statement → List Evaluated → Prop where
  | nil {before : List Evaluated} : Runs environment before [] []
  | assign {before later : List Evaluated} {name : String} {value : Expr} {bits : Bits}
      {rest : List Statement} (valued : value.eval (environment.following before) = .ok bits)
      (others : Runs environment (before ++ [⟨some name, value, bits⟩]) rest later) :
      Runs environment before (.blocking (.ident name) value :: rest)
        (⟨some name, value, bits⟩ :: later)
  | cond {before later : List Evaluated} {condition : Expr} {decided : Bits}
      {onTrue onFalse rest : List Statement}
      (decides : condition.eval (environment.following before) = .ok decided)
      (others : Runs environment (before ++ [⟨none, condition, decided⟩])
        ((if decided.isTrue then onTrue else onFalse) ++ rest) later) :
      Runs environment before (.cond condition onTrue onFalse :: rest)
        (⟨none, condition, decided⟩ :: later)

theorem lastGiven_append (first second : List Evaluated) (name : String) :
    lastGiven (first ++ second) name = (lastGiven second name).or (lastGiven first name) := by
  rw [lastGiven, List.reverse_append, List.findSome?_append]
  rfl

theorem lastGiven_of_kept {before middle : List Evaluated} {given : Evaluated} {name : String}
    (assigns : given.target? = some name) (kept : ∀ other ∈ middle, other.target? ≠ some name) :
    lastGiven (before ++ given :: middle) name = some given.bits := by
  have none : lastGiven middle name = none := by
    refine List.findSome?_eq_none_iff.mpr fun other member => ?_
    rw [if_neg (kept other (List.mem_reverse.mp member))]
  have first : lastGiven [given] name = some given.bits := by
    simp [lastGiven, assigns]
  rw [List.append_cons, lastGiven_append, lastGiven_append, none, first]
  rfl

def recorded (steps : List Evaluated) : Table Bits :=
  steps.foldl (fun values step =>
    match step.target? with
    | some name => values.insert name step.bits
    | none => values) .empty

theorem get?_recorded (steps : List Evaluated) (name : String) :
    (recorded steps).get? name = lastGiven steps name := by
  induction steps using List.reverseRecOn with
  | nil => rfl
  | append_singleton steps step ih =>
    rw [recorded, List.foldl_append, lastGiven_append, ← ih]
    obtain ⟨target?, expr, bits⟩ := step
    cases target? with
    | none => rfl
    | some target =>
      by_cases same : target = name
      · simp [lastGiven, recorded, Table.get?_insert, same]
      · simp [lastGiven, recorded, Table.get?_insert, same, Ne.symm same]

variable {environment : Environment}

theorem Environment.shadow_recorded (steps : List Evaluated) :
    environment.shadow (recorded steps) = environment.following steps := by
  simp only [shadow, following, Environment.mk.injEq, true_and]
  funext name
  cases given : lastGiven steps name with
  | none => simp only [get?_recorded, given]
  | some bits => simp only [get?_recorded, given]

theorem Runs.evaluated {before steps : List Evaluated} {body : List Statement}
    (runs : Runs environment before body steps) {earlier later : List Evaluated} {step : Evaluated}
    (parts : steps = earlier ++ step :: later) :
    step.expr.eval (environment.following (before ++ earlier)) = .ok step.bits := by
  induction runs generalizing earlier with
  | nil => simp at parts
  | assign evaluated _ ih | cond evaluated _ ih =>
    cases earlier with
    | nil =>
      obtain ⟨rfl, -⟩ := List.cons.inj parts
      rwa [List.append_nil]
    | cons head earlier =>
      obtain ⟨rfl, rest⟩ := List.cons.inj parts
      rw [List.append_cons]
      exact ih rest

namespace Statement

theorem settleAll_append (first second : List Statement) (values : Table Bits) :
    settleAll environment (first ++ second) values =
      settleAll environment first values >>= settleAll environment second := by
  induction first generalizing values with
  | nil => rfl
  | cons statement rest ih => simp only [List.cons_append, settleAll, ih, bind_assoc]

private theorem settle_cond (condition : Expr) (onTrue onFalse : List Statement)
    (values : Table Bits) :
    (cond condition onTrue onFalse).settle environment values =
      condition.eval (environment.shadow values) >>= fun decided =>
        settleAll environment (if decided.isTrue then onTrue else onFalse) values := by
  simp only [settle]
  congr 1
  funext decided
  split <;> rfl

private theorem recorded_assign (steps : List Evaluated) (name : String) (value : Expr)
    (bits : Bits) :
    recorded (steps ++ [⟨some name, value, bits⟩]) = (recorded steps).insert name bits := by
  simp [recorded]

private theorem recorded_cond (steps : List Evaluated) (condition : Expr) (decided : Bits) :
    recorded (steps ++ [⟨none, condition, decided⟩]) = recorded steps := by
  simp [recorded]

private theorem settleAll_of_runs {before steps : List Evaluated} {body : List Statement}
    (runs : Runs environment before body steps) :
    settleAll environment body (recorded before) = .ok (recorded (before ++ steps)) := by
  induction runs with
  | nil => simp [settleAll]
  | @assign before later name value bits rest valued _ ih =>
    rw [recorded_assign, List.append_assoc] at ih
    simpa [settleAll, settle, Environment.shadow_recorded, valued, Expr.name?] using ih
  | @cond before later condition decided onTrue onFalse rest decides _ ih =>
    rw [recorded_cond, settleAll_append, List.append_assoc] at ih
    simpa [settleAll, settle_cond, Environment.shadow_recorded, decides] using ih

mutual

private theorem exists_steps_of_settle : ∀ (statement : Statement) (before : List Evaluated)
    {values : Table Bits}, statement.settle environment (recorded before) = .ok values →
      ∃ first, values = recorded (before ++ first) ∧ ∀ rest later,
        Runs environment (before ++ first) rest later →
          Runs environment before (statement :: rest) (first ++ later)
  | .blocking target value, before, values, done => by
    obtain ⟨bits, valued, given⟩ := bind_eq_ok_iff.mp done
    rw [Environment.shadow_recorded] at valued
    cases target with
    | ident name =>
      cases given
      exact ⟨_, (recorded_assign before name value bits).symm,
        fun rest later others => .assign valued others⟩
    | number | word | paren | binary | cond => cases given
  | .nonblocking _ _, _, _, done => by cases done
  | .cond condition onTrue onFalse, before, values, done => by
    rw [settle_cond, Environment.shadow_recorded] at done
    obtain ⟨decided, decides, done⟩ := bind_eq_ok_iff.mp done
    rw [← recorded_cond before condition decided] at done
    -- The condition is the first step, and those of the branch that it takes come next.
    have branch : ∃ inside, values = recorded (before ++ [⟨none, condition, decided⟩] ++ inside) ∧
        ∀ rest later,
          Runs environment (before ++ [⟨none, condition, decided⟩] ++ inside) rest later →
            Runs environment (before ++ [⟨none, condition, decided⟩])
              ((if decided.isTrue then onTrue else onFalse) ++ rest) (inside ++ later) := by
      by_cases holds : decided.isTrue = true
      · rw [if_pos holds] at done ⊢
        exact exists_steps_of_settleAll onTrue _ done
      · rw [if_neg holds] at done ⊢
        exact exists_steps_of_settleAll onFalse _ done
    obtain ⟨inside, rfl, continues⟩ := branch
    rw [List.append_assoc] at continues ⊢
    exact ⟨_, rfl, fun rest later others => .cond decides (continues rest later others)⟩

private theorem exists_steps_of_settleAll : ∀ (body : List Statement) (before : List Evaluated)
    {values : Table Bits}, settleAll environment body (recorded before) = .ok values →
      ∃ first, values = recorded (before ++ first) ∧ ∀ rest later,
        Runs environment (before ++ first) rest later →
          Runs environment before (body ++ rest) (first ++ later)
  | [], before, values, done => by
    cases done
    refine ⟨[], by rw [List.append_nil], fun rest later others => ?_⟩
    rwa [List.append_nil] at others
  | statement :: body, before, values, done => by
    obtain ⟨middle, here, later⟩ := bind_eq_ok_iff.mp done
    obtain ⟨first, rfl, starts⟩ := exists_steps_of_settle statement before here
    obtain ⟨second, rfl, continues⟩ := exists_steps_of_settleAll body (before ++ first) later
    rw [List.append_assoc] at continues ⊢
    refine ⟨_, rfl, fun rest later others => ?_⟩
    rw [List.append_assoc]
    exact starts _ _ (continues rest later others)

end

theorem settleAll_eq_ok_iff {body : List Statement} {values : Table Bits} :
    settleAll environment body .empty = .ok values ↔
      ∃ steps, Runs environment [] body steps ∧ values = recorded steps := by
  constructor
  · intro done
    obtain ⟨steps, rfl, continues⟩ := exists_steps_of_settleAll body [] done
    have runs := continues [] [] .nil
    rw [List.append_nil, List.append_nil] at runs
    exact ⟨steps, runs, rfl⟩
  · rintro ⟨steps, runs, rfl⟩
    exact settleAll_of_runs runs

end Statement

/-- One combinational block sets the register, and nothing else gives it a value. -/
structure Module.SettledBy (module : Module) (body : List Statement) (name : String)
    (width : Nat) : Prop where
  declared : Declaration.reg width name ∈ module.declarations
  settles : (name, body) ∈ module.settledEntries
  single : ∀ entry ∈ module.settledEntries, entry.1 = name → entry.2 = body
  undriven : ∀ entry ∈ module.driverEntries, entry.1 ≠ name

namespace Simulator

variable {module : Module} {sim : Simulator} {body : List Statement} {name : String} {width : Nat}

/-- From outside a register shows what its block settles, at its own width. -/
theorem valueWithin_of_settledBy (state : sim.Simulates module) (distinct : module.names.Nodup)
    (own : module.SettledBy body name width) (depth : Nat) :
    sim.valueWithin (depth + 1) name =
      (Statement.settleAll (sim.within depth) body .empty).map fun values =>
        ((values.get? name).map fun bits => bits.resize width).getD (.x width) := by
  have settles : name ∈ module.settledEntries.map Prod.fst :=
    List.mem_map.mpr ⟨_, own.settles, rfl⟩
  have free : sim.held? name = none := by
    rw [held?, state.registers_eq_none (.inl settles)]
    exact congrArg (Option.or · none) (state.inputs_of_declaration distinct own.declared)
  have undriven := state.drivers_eq_none own.undriven
  have settled := state.settled own.settles own.single
  have wide : sim.widths.get? name = some width :=
    state.width_of_declaration distinct own.declared rfl
  simp only [valueWithin_succ, follow, free, undriven, settled, wide, Option.getD_some, within]
  cases Statement.settleAll ⟨sim.arrays.get?, sim.valueWithin depth⟩ body .empty <;> rfl

/-- A register shows the last value that it is given, at its own width. -/
theorem get_of_runs (state : sim.Simulates module) (distinct : module.names.Nodup)
    (own : module.SettledBy body name width) {steps : List Evaluated}
    (runs : Runs (sim.within maxDepth) [] body steps) :
    sim.get name =
      .ok (((lastGiven steps name).map fun bits => bits.resize width).getD (.x width)) := by
  have settles := Statement.settleAll_eq_ok_iff.mpr ⟨steps, runs, rfl⟩
  rw [get, valueWithin_of_settledBy state distinct own, settles, ← get?_recorded]
  rfl

/-- A register shows a value exactly if its block runs to its end. -/
theorem get_succeeds_iff (state : sim.Simulates module) (distinct : module.names.Nodup)
    (own : module.SettledBy body name width) :
    (∃ bits, sim.get name = .ok bits) ↔ ∃ steps, Runs (sim.within maxDepth) [] body steps := by
  constructor
  · rintro ⟨bits, found⟩
    rw [get, valueWithin_of_settledBy state distinct own] at found
    cases settles : Statement.settleAll (sim.within maxDepth) body .empty with
    | error error =>
      rw [settles] at found
      cases found
    | ok values =>
      obtain ⟨steps, runs, -⟩ := Statement.settleAll_eq_ok_iff.mp settles
      exact ⟨steps, runs⟩
  · rintro ⟨steps, runs⟩
    exact ⟨_, get_of_runs state distinct own runs⟩

/-- What a register is copied to is given the bits that the register was given. -/
theorem runs_copy {first second : String} {value : Expr} {bits : Bits}
    (valued : value.eval environment = .ok bits) :
    Runs environment [] [.blocking (.ident first) value, .blocking (.ident second) (.ident first)]
      [⟨some first, value, bits⟩, ⟨some second, .ident first, bits⟩] := by
  refine .assign valued (.assign ?_ .nil)
  simp [Environment.following, lastGiven]

/-- Inside a block a register is worth exactly the bits that it was given last, and it is only
from outside that it shows them at its own width. So a register that is copied to another in its
block passes on what it does not show itself, unless the bits that are cut off are zero. -/
theorem blocking_values_cut_only_outside (distinct : module.names.Nodup)
    (state : sim.Simulates module) (body : List Statement) :
    (∀ environment before given middle step later name,
      Runs environment [] body (before ++ given :: middle ++ step :: later) →
      given.target? = some name → (∀ other ∈ middle, other.target? ≠ some name) →
      ∃ place, place = environment.following (before ++ given :: middle) ∧
        place.value name = .ok given.bits ∧ step.expr.eval place = .ok step.bits) ∧
    (∀ name width, module.SettledBy body name width →
      ((∃ bits, sim.get name = .ok bits) ↔ ∃ steps, Runs (sim.within maxDepth) [] body steps) ∧
      ∀ steps, Runs (sim.within maxDepth) [] body steps →
        (lastGiven steps name = none → sim.get name = .ok (.x width)) ∧
        ∀ bits, lastGiven steps name = some bits → sim.get name = .ok (bits.resize width) ∧
          (sim.get name = .ok bits ↔ bits.width = width)) ∧
    ∀ first second firstWidth secondWidth value bits, first ≠ second →
      body = [.blocking (.ident first) value, .blocking (.ident second) (.ident first)] →
      module.SettledBy body first firstWidth → module.SettledBy body second secondWidth →
      value.eval (sim.within maxDepth) = .ok bits →
      ∃ shown copied, sim.get first = .ok shown ∧ sim.get second = .ok copied ∧
        shown = bits.resize firstWidth ∧ copied = bits.resize secondWidth ∧
        (copied = shown.resize secondWidth ↔
          ∀ index, firstWidth ≤ index → index < secondWidth →
            bits.toList.getD index .zero = .zero) := by
  have shows : ∀ {name width steps bits}, module.SettledBy body name width →
      Runs (sim.within maxDepth) [] body steps → lastGiven steps name = some bits →
        sim.get name = .ok (bits.resize width) := by
    intro name width steps bits own runs given
    rw [get_of_runs state distinct own runs, given]
    rfl
  refine ⟨?_, fun name width own => ⟨get_succeeds_iff state distinct own, ?_⟩, ?_⟩
  · intro environment before given middle step later name runs assigns kept
    refine ⟨_, rfl, ?_, runs.evaluated rfl⟩
    simp only [Environment.following, lastGiven_of_kept assigns kept]
  · intro steps runs
    constructor
    · intro nothing
      rw [get_of_runs state distinct own runs, nothing]
      rfl
    · intro bits given
      have shown := shows own runs given
      refine ⟨shown, ?_⟩
      rw [shown, Except.ok.injEq]
      exact ⟨fun same => same ▸ Bits.width_resize bits width, Bits.resize_of_width_eq⟩
  · intro first second firstWidth secondWidth value bits other copies ownFirst ownSecond valued
    have runs : Runs (sim.within maxDepth) [] body
        [⟨some first, value, bits⟩, ⟨some second, .ident first, bits⟩] := by
      rw [copies]
      exact runs_copy valued
    refine ⟨_, _, shows ownFirst runs ?_, shows ownSecond runs ?_, rfl, rfl, ?_⟩
    · simp [lastGiven, other.symm]
    · simp [lastGiven]
    · rw [eq_comm, Bits.resize_resize_eq_iff]

/-- A block that sets a register narrower than its input and copies it to one as wide. -/
def narrowBody : List Statement :=
  [.blocking (.ident "a") (.ident "d"), .blocking (.ident "b") (.ident "a")]

def narrow : Module where
  name := "narrow"
  ports := [.input 8 "d"]
  body := [.declarations [.reg 4 "a", .reg 8 "b"], .always .anyChange narrowBody]

theorem blocking_values_cut_only_outside_narrow :
    narrow.names.Nodup ∧ ∃ sim, sim = (elaborated narrow).run [.set "d" 200] ∧
      sim.Simulates narrow ∧ narrow.SettledBy narrowBody "a" 4 ∧
      narrow.SettledBy narrowBody "b" 8 ∧
      (Expr.ident "d").eval (sim.within maxDepth) = .ok (.ofNat 8 200) ∧
      sim.get "a" = .ok (.ofNat 4 8) ∧ sim.get "b" = .ok (.ofNat 8 200) := by
  have distinct : narrow.names.Nodup := by decide
  have state := (simulates_elaborated narrow).run [.set "d" 200]
  have single : ∀ entry ∈ narrow.settledEntries, entry.2 = narrowBody := by
    intro entry member
    rcases List.mem_pair.mp member with rfl | rfl <;> rfl
  have ownFirst : narrow.SettledBy narrowBody "a" 4 :=
    ⟨by decide, List.mem_cons_self, fun entry member _ => single entry member, by decide⟩
  have ownSecond : narrow.SettledBy narrowBody "b" 8 :=
    ⟨by decide, List.mem_cons_of_mem _ List.mem_cons_self,
      fun entry member _ => single entry member, by decide⟩
  have valued : (Expr.ident "d").eval (((elaborated narrow).run [.set "d" 200]).within maxDepth) =
      .ok (.ofNat 8 200) := rfl
  obtain ⟨-, -, copies⟩ := blocking_values_cut_only_outside distinct state narrowBody
  obtain ⟨_, _, first, second, rfl, rfl, -⟩ :=
    copies "a" "b" 4 8 (.ident "d") _ (by decide) rfl ownFirst ownSecond valued
  exact ⟨distinct, _, rfl, state, ownFirst, ownSecond, valued, first, second⟩

/-- What is copied need not be what is shown. -/
theorem narrow_copy_wider_than_shown :
    ∃ sim shown copied, sim = (elaborated narrow).run [.set "d" 255] ∧ narrow.names.Nodup ∧
      sim.get "a" = .ok shown ∧ sim.get "b" = .ok copied ∧ shown = .ofNat 4 15 ∧
      copied = .ofNat 8 255 ∧ copied ≠ shown.resize 8 :=
  ⟨_, .ofNat 4 15, .ofNat 8 255, rfl, by decide, rfl, rfl, rfl, rfl, by decide⟩

end Simulator
end Multiport
