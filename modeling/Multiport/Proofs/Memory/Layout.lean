import Multiport.Memory.Lowering
import Multiport.Proofs.Draft.Extension

/-! What stands where in a lowered memory, written down as data: the storage, then for each port
the lanes that delay its inputs and the logic behind them, then the assignments of the outputs. A
layout knows the names that were chosen; `Layout.items` says what they are used for. -/
namespace Multiport.Memory

/-- A signal and the registers that delay it, in the order in which it passes them. -/
structure Lane where
  source : Signal
  registers : List String

namespace Lane

/-- Each register of a chain with what it captures at an edge. -/
def capturesFrom (source : Expr) : List String → List (String × Expr)
  | [] => []
  | register :: rest => (register, source) :: capturesFrom (.ident register) rest

def captures (lane : Lane) : List (String × Expr) :=
  capturesFrom lane.source.expr lane.registers

def output (lane : Lane) : Signal :=
  ⟨(lane.registers.getLast?.map Expr.ident).getD lane.source.expr, lane.source.width⟩

/-- The block that lets a register capture a value at an edge. -/
def captureBody (capture : String × Expr) : List Statement :=
  [.nonblocking (.ident capture.1) capture.2]

/-- For each register its declaration and the block that captures into it. -/
def items (lane : Lane) (clock : Expr) : List Item :=
  lane.captures.flatMap fun capture =>
    [.declarations [.reg lane.source.width capture.1],
      .always (.posedge clock) (captureBody capture)]

/-- What stands behind a chain of registers does not depend on what stands before it, unless there
are none. -/
theorem last_cons (source : Expr) (register : String) (rest : List String) :
    ((register :: rest).getLast?.map Expr.ident).getD source =
      (rest.getLast?.map Expr.ident).getD (.ident register) := by
  rw [List.getLast?_cons]
  cases rest.getLast? <;> rfl

theorem capturesFrom_concat (source : Expr) (registers : List String) (register : String) :
    capturesFrom source (registers ++ [register]) =
      capturesFrom source registers ++
        [(register, (registers.getLast?.map Expr.ident).getD source)] := by
  induction registers generalizing source with
  | nil => rfl
  | cons first rest ih =>
    rw [List.cons_append, capturesFrom, ih, capturesFrom, List.cons_append, last_cons]

@[simp] theorem captures_fst (source : Expr) (registers : List String) :
    (capturesFrom source registers).map Prod.fst = registers := by
  induction registers generalizing source with
  | nil => rfl
  | cons register rest ih => simp [capturesFrom, ih]

theorem register_of_mem_captures {lane : Lane} {capture : String × Expr}
    (captured : capture ∈ lane.captures) : capture.1 ∈ lane.registers := by
  rw [← captures_fst lane.source.expr lane.registers]
  exact List.mem_map.mpr ⟨capture, captured, rfl⟩

/-- What is captured is what the chain starts with or one of its registers. -/
theorem source_of_mem_capturesFrom {source : Expr} {registers : List String}
    {capture : String × Expr} (member : capture ∈ capturesFrom source registers) :
    capture.2 = source ∨ ∃ register ∈ registers, capture.2 = .ident register := by
  induction registers generalizing source with
  | nil => simp [capturesFrom] at member
  | cons register rest ih =>
    rcases List.mem_cons.mp member with rfl | later
    · exact .inl rfl
    · rcases ih later with first | ⟨other, inRest, same⟩
      · exact .inr ⟨register, List.mem_cons_self, first⟩
      · exact .inr ⟨other, List.mem_cons_of_mem _ inRest, same⟩

end Lane

/-- The registers of a lane are named in a scope by their places. -/
def laneNames (scope : Scope) (stages : Nat) : List String :=
  (List.range stages).map fun stage => scope.qualify ("d" ++ toString stage)

theorem extends_delay (draft : ModuleDraft) (scope : Scope) (signal clock : Signal)
    (stages : Nat) :
    ∃ registers after, registers.length = stages ∧
      draft.delay scope signal clock stages = (Lane.output ⟨signal, registers⟩, after) ∧
      draft.Extends after (laneNames scope stages)
        (Lane.items ⟨signal, registers⟩ clock.expr) := by
  induction stages with
  | zero => exact ⟨[], draft, rfl, rfl, .refl draft⟩
  | succ stages ih =>
    obtain ⟨registers, before, length, delayed, extended⟩ := ih
    let last := Lane.output ⟨signal, registers⟩
    obtain ⟨fresh, after, named, declared⟩ :=
      before.extends_declareReg scope ("d" ++ toString stages) last.width
    have clocked := after.extends_clocked clock (Lane.captureBody (fresh, last.expr))
    have names : laneNames scope (stages + 1) =
        laneNames scope stages ++ ([scope.qualify ("d" ++ toString stages)] ++ []) := by
      simp [laneNames, List.range_succ]
    have items : Lane.items ⟨signal, registers ++ [fresh]⟩ clock.expr =
        Lane.items ⟨signal, registers⟩ clock.expr ++
          ([.declarations [.reg last.width fresh]] ++
            [.always (.posedge clock.expr) (Lane.captureBody (fresh, last.expr))]) := by
      simp [Lane.items, Lane.captures, Lane.capturesFrom_concat, Lane.output, last]
    refine ⟨registers ++ [fresh], after.clocked clock (Lane.captureBody (fresh, last.expr)),
      by simp [length], ?_, ?_⟩
    · have output : Lane.output ⟨signal, registers ++ [fresh]⟩ = .ident fresh last.width := by
        simp [Lane.output, Signal.ident, last]
      simp only [ModuleDraft.delay, delayed, named, output, last]
      rfl
    · rw [names, items]
      exact extended.trans (declared.trans clocked)

/-- What is built for one port: lanes behind its inputs, and the logic behind the lanes. -/
structure Circuit where
  clock : Signal
  lanes : List Lane
  logic : List Item

def Circuit.items (circuit : Circuit) : List Item :=
  circuit.lanes.flatMap (fun lane => lane.items circuit.clock.expr) ++ circuit.logic

/-- A read port and the names of the registers behind its inputs. -/
structure ReadPlan where
  port : ReadPort
  enableNames : List String
  addressNames : List String

namespace ReadPlan

def enable (plan : ReadPlan) : Lane := ⟨plan.port.enable, plan.enableNames⟩
def address (plan : ReadPlan) : Lane := ⟨plan.port.address, plan.addressNames⟩
def lanes (plan : ReadPlan) : List Lane := [plan.enable, plan.address]

def circuit (plan : ReadPlan) : Circuit := ⟨plan.port.clock, plan.lanes, []⟩

/-- What the port shows: the word at the address, if it is enabled. -/
def value (plan : ReadPlan) (storage : Storage) : Signal :=
  ⟨.cond plan.enable.output.expr (storage.slot plan.address.output) (.x storage.width),
    storage.width⟩

end ReadPlan

/-- A write port and the names of the registers behind its inputs. -/
structure WritePlan where
  port : WritePort
  enableNames : List String
  addressNames : List String
  maskNames : List String
  dataNames : List String

namespace WritePlan

def enable (plan : WritePlan) : Lane := ⟨plan.port.enable, plan.enableNames⟩
def address (plan : WritePlan) : Lane := ⟨plan.port.address, plan.addressNames⟩
def mask (plan : WritePlan) : Lane := ⟨plan.port.mask, plan.maskNames⟩
def data (plan : WritePlan) : Lane := ⟨plan.port.data, plan.dataNames⟩
def lanes (plan : WritePlan) : List Lane := [plan.enable, plan.address, plan.mask, plan.data]

def condition (plan : WritePlan) : Expr :=
  .combine .and plan.enable.output.expr plan.mask.output.expr

def store (plan : WritePlan) (storage : Storage) : List Statement :=
  [.cond plan.condition
    [.nonblocking (storage.slot plan.address.output) plan.data.output.expr] []]

def circuit (storage : Storage) (plan : WritePlan) : Circuit :=
  ⟨plan.port.clock, plan.lanes, [.always (.posedge plan.port.clock.expr) (plan.store storage)]⟩

end WritePlan

/-- A read-write port, the names of the registers behind its inputs, of the nets that tell a write
and a read, and of the register that holds what is read. -/
structure ReadWritePlan where
  port : ReadWritePort
  enableNames : List String
  addressNames : List String
  modeNames : List String
  maskNames : List String
  dataNames : List String
  writes : String
  reads : String
  held : String

namespace ReadWritePlan

def enable (plan : ReadWritePlan) : Lane := ⟨plan.port.enable, plan.enableNames⟩
def address (plan : ReadWritePlan) : Lane := ⟨plan.port.address, plan.addressNames⟩
def mode (plan : ReadWritePlan) : Lane := ⟨plan.port.mode, plan.modeNames⟩
def mask (plan : ReadWritePlan) : Lane := ⟨plan.port.mask, plan.maskNames⟩
def data (plan : ReadWritePlan) : Lane := ⟨plan.port.data, plan.dataNames⟩
def lanes (plan : ReadWritePlan) : List Lane :=
  [plan.enable, plan.address, plan.mode, plan.mask, plan.data]

def writeCondition (plan : ReadWritePlan) : Expr :=
  .combine .and plan.enable.output.expr
    (.combine .and plan.mask.output.expr plan.mode.output.expr)

def readCondition (plan : ReadWritePlan) : Expr :=
  .combine .and plan.enable.output.expr
    (.combine .equal plan.mode.output.expr (.constant 1 0))

def settle (plan : ReadWritePlan) (storage : Storage) : List Statement :=
  [.blocking (.ident plan.held) (.x storage.width),
    .cond (.ident plan.writes) []
      [.cond (.ident plan.reads)
        [.blocking (.ident plan.held) (storage.slot plan.address.output)] []]]

def store (plan : ReadWritePlan) (storage : Storage) : List Statement :=
  [.cond (.ident plan.writes)
    [.nonblocking (storage.slot plan.address.output) plan.data.output.expr] []]

def logic (plan : ReadWritePlan) (storage : Storage) : List Item :=
  [.declarations [.net 1 plan.writes], .assigns [⟨.ident plan.writes, plan.writeCondition⟩],
    .declarations [.net 1 plan.reads], .assigns [⟨.ident plan.reads, plan.readCondition⟩],
    .declarations [.reg storage.width plan.held],
    .always .anyChange (plan.settle storage),
    .always (.posedge plan.port.clock.expr) (plan.store storage)]

def circuit (storage : Storage) (plan : ReadWritePlan) : Circuit :=
  ⟨plan.port.clock, plan.lanes, plan.logic storage⟩

end ReadWritePlan

/-- Everything in a lowered memory, with the names chosen for it. -/
structure Layout where
  ports : List Port
  storage : Storage
  read : List ReadPlan
  readWrite : List ReadWritePlan
  write : List WritePlan

namespace Layout

def interface (layout : Layout) : Interface :=
  ⟨layout.read.map ReadPlan.port, layout.readWrite.map ReadWritePlan.port,
    layout.write.map WritePlan.port⟩

/-- The circuits of the ports, in the order in which they are built. -/
def circuits (layout : Layout) : List Circuit :=
  layout.read.map ReadPlan.circuit ++ layout.readWrite.map (ReadWritePlan.circuit layout.storage) ++
    layout.write.map (WritePlan.circuit layout.storage)

theorem cases_of_mem_circuits {layout : Layout} {circuit : Circuit}
    (member : circuit ∈ layout.circuits) :
    (∃ plan ∈ layout.read, circuit = plan.circuit) ∨
      (∃ plan ∈ layout.readWrite, circuit = plan.circuit layout.storage) ∨
      ∃ plan ∈ layout.write, circuit = plan.circuit layout.storage := by
  simpa [circuits, eq_comm, or_assoc] using member

def inputs (layout : Layout) : List Signal :=
  (layout.ports.filter Port.isInput).map fun port => .ident port.name port.width

def outputs (layout : Layout) : List Port := layout.ports.filter fun port => !port.isInput

def values (layout : Layout) : List Signal :=
  layout.read.map (fun plan => plan.value layout.storage) ++
    layout.readWrite.map fun plan => .ident plan.held layout.storage.width

theorem length_values (layout : Layout) :
    layout.values.length = layout.interface.read.length + layout.interface.readWrite.length := by
  simp [values, interface]

theorem width_of_mem_values {layout : Layout} {value : Signal} (member : value ∈ layout.values) :
    value.width = layout.storage.width := by
  rcases List.mem_append.mp member with shown | held
  · obtain ⟨plan, -, rfl⟩ := List.mem_map.mp shown
    rfl
  · obtain ⟨plan, -, rfl⟩ := List.mem_map.mp held
    rfl

def driven (layout : Layout) : List Assign :=
  (layout.outputs.zip layout.values).map fun pair => ⟨.ident pair.1.name, pair.2.expr⟩

def built (layout : Layout) : List Item :=
  .declarations [.array layout.storage.width layout.storage.depth layout.storage.name] ::
    layout.circuits.flatMap Circuit.items

def items (layout : Layout) : List Item :=
  layout.built ++ if layout.driven.isEmpty then [] else [.assigns layout.driven]

end Layout
end Multiport.Memory
