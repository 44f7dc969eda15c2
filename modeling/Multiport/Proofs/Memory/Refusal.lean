import Multiport.Proofs.Memory.Signature
import Multiport.Proofs.Memory.Stepwise

/-! Which memories are refused, and why. The checks come in a fixed order: the descriptor, the
number of inputs, their widths, the number of outputs, their widths. A memory that passes them is
lowered under the given name with the given ports, and no contract is broken, whatever the names of
the ports are, as long as a word holds the number of inputs. -/
namespace Multiport.Memory

/-- What an input of a memory is for: the port it belongs to, by kind and place, and the input of
that port. -/
structure InputSlot where
  kind : PortKind
  index : Nat
  input : PortInput
deriving DecidableEq, Repr

/-- The width that an input must have; an address may have any. -/
def Descriptor.requiredWidth? (descriptor : Descriptor) : InputRole → Option Nat
  | .address => none
  | .clock | .enable | .writeMode | .writeMask => some 1
  | .writeData => some descriptor.dataWidth

/-- What is wrong with the width of the signal given for an input, if anything. -/
def InputSlot.misfit? (descriptor : Descriptor) (slot : InputSlot) (width : Nat) :
    Option LoweringError :=
  match descriptor.requiredWidth? slot.input.role with
  | none => none
  | some required =>
      if width = required then none
      else
        some (.signalWidth (slot.kind.portName slot.index) slot.input.name required width)

/-- The inputs of a memory in the order in which they are taken. -/
def Descriptor.inputSlots (descriptor : Descriptor) : List InputSlot :=
  descriptor.eachPort fun kind index => kind.inputs.map (InputSlot.mk kind index)

/-- What is wrong with the first signal that does not fit the input it is given for, if any. -/
def firstMisfit? (descriptor : Descriptor) (slots : List InputSlot) (widths : List Nat) :
    Option LoweringError :=
  (slots.zip widths).findSome? fun (slot, width) => slot.misfit? descriptor width

/-- What is wrong with the inputs given for a memory, if anything: their number, or else the first
of them that does not fit. -/
def inputFault? (descriptor : Descriptor) (inputs : List Port) : Option LoweringError :=
  let expected :=
    3 * descriptor.readPorts + 6 * descriptor.readWritePorts + 5 * descriptor.writePorts
  if inputs.length ≠ expected then some (.signalCount expected inputs.length)
  else firstMisfit? descriptor descriptor.inputSlots (inputs.map Port.width)

/-- What is wrong with the outputs given for a memory, if anything: their number, or else the first
of them that does not have the width of the data. -/
def outputFault? (descriptor : Descriptor) (outputs : List Port) : Option LoweringError :=
  let expected := descriptor.readPorts + descriptor.readWritePorts
  if outputs.length ≠ expected then some (.outputCount expected outputs.length)
  else
    (outputs.find? fun port => port.width ≠ descriptor.dataWidth).map fun port =>
      .draft (.outputWidth port.name port.width descriptor.dataWidth)

/-- Why a memory is refused, if it is. -/
def refusal? (descriptor : Descriptor) (ports : List Port) : Option LoweringError :=
  match descriptor.validate with
  | .error fault => some (.invalidDescriptor fault)
  | .ok () =>
      (inputFault? descriptor (ports.filter Port.isInput)).or
        (outputFault? descriptor (ports.filter fun port => !port.isInput))

private theorem InputSlot.misfit?_eq (descriptor : Descriptor) (slot : InputSlot) (width : Nat) :
    slot.misfit? descriptor width =
      if slot.input.role ≠ .address ∧ width ≠ descriptor.inputWidth slot.input.role then
        some (.signalWidth (slot.kind.portName slot.index) slot.input.name
          (descriptor.inputWidth slot.input.role) width)
      else none := by
  obtain ⟨kind, index, ⟨role, name⟩⟩ := slot
  cases role <;>
    simp [InputSlot.misfit?, Descriptor.requiredWidth?, Descriptor.inputWidth]

private theorem firstMisfit?_cons (descriptor : Descriptor) (slot : InputSlot)
    (slots : List InputSlot) (width : Nat) (widths : List Nat) :
    firstMisfit? descriptor (slot :: slots) (width :: widths) =
      (slot.misfit? descriptor width).or (firstMisfit? descriptor slots widths) := by
  cases misfit : slot.misfit? descriptor width <;>
    simp [firstMisfit?, misfit]

private theorem firstMisfit?_append (descriptor : Descriptor) {first : List InputSlot}
    {widths : List Nat} (length : first.length = widths.length) (second : List InputSlot)
    (rest : List Nat) :
    firstMisfit? descriptor (first ++ second) (widths ++ rest) =
      (firstMisfit? descriptor first widths).or (firstMisfit? descriptor second rest) := by
  simp only [firstMisfit?, List.zip_append length, List.findSome?_append]

private theorem firstMisfit?_append_left (descriptor : Descriptor) {slots : List InputSlot}
    {widths : List Nat} (length : slots.length = widths.length) (rest : List Nat) :
    firstMisfit? descriptor slots (widths ++ rest) = firstMisfit? descriptor slots widths := by
  have whole := firstMisfit?_append descriptor length [] rest
  rw [List.append_nil] at whole
  exact whole.trans Option.or_none

private theorem checkWidths_eq (descriptor : Descriptor) (kind : PortKind) (index : Nat)
    (inputs : List PortInput) (signals : List Signal) :
    checkWidths descriptor (kind.portName index) (inputs.zip signals) =
      refuse (firstMisfit? descriptor (inputs.map (InputSlot.mk kind index))
        (signals.map Signal.width)) := by
  induction inputs generalizing signals with
  | nil => rfl
  | cons input inputs ih =>
    cases signals with
    | nil => rfl
    | cons signal signals =>
      rw [List.zip_cons_cons, checkWidths, List.map_cons, List.map_cons, firstMisfit?_cons,
        InputSlot.misfit?_eq, ih]
      split <;> rfl

/-- The inputs of some ports of one kind, the first of them having the given place. -/
private def kindSlots (kind : PortKind) (index count : Nat) : List InputSlot :=
  (List.range' index count).flatMap fun place => kind.inputs.map (InputSlot.mk kind place)

private theorem kindSlots_succ (kind : PortKind) (index count : Nat) :
    kindSlots kind index (count + 1) =
      kind.inputs.map (InputSlot.mk kind index) ++ kindSlots kind (index + 1) count := by
  rw [kindSlots, List.range'_succ, List.flatMap_cons]
  rfl

private theorem inputSlots_eq (descriptor : Descriptor) :
    descriptor.inputSlots = kindSlots .read 0 descriptor.readPorts ++
      (kindSlots .readWrite 0 descriptor.readWritePorts ++
        kindSlots .write 0 descriptor.writePorts) := by
  simp only [Descriptor.inputSlots, Descriptor.eachPort, Descriptor.kindOrder, List.flatMap_cons,
    List.flatMap_nil, List.append_nil, kindSlots, ← List.range_eq_range']
  rfl

section

variable {α : Type} {kind : PortKind} {take? : List Signal → Option (α × List Signal)}
variable {signals : α → List Signal} (arity : ∀ port : α, (signals port).length = kind.arity)

include arity

private theorem length_inputs (port : α) (index : Nat) :
    (kind.inputs.map (InputSlot.mk kind index)).length =
      ((signals port).map Signal.width).length := by
  rw [List.length_map, List.length_map, arity]
  rfl

private theorem firstMisfit?_kindSlots_succ (descriptor : Descriptor) (port : α)
    (count index : Nat) (later : List InputSlot) (others : List Signal) :
    firstMisfit? descriptor (kindSlots kind index (count + 1) ++ later)
        ((signals port ++ others).map Signal.width) =
      (firstMisfit? descriptor (kind.inputs.map (InputSlot.mk kind index))
        ((signals port).map Signal.width)).or
        (firstMisfit? descriptor (kindSlots kind (index + 1) count ++ later)
          (others.map Signal.width)) := by
  rw [List.map_append, kindSlots_succ, List.append_assoc,
    firstMisfit?_append descriptor (length_inputs arity port index)]

private theorem takePorts_succ (descriptor : Descriptor) {port : α} {others : List Signal}
    (found : take? (signals port ++ others) = some (port, others)) (count index : Nat) :
    takePorts descriptor kind take? (count + 1) index (signals port ++ others) =
      (refuse (firstMisfit? descriptor (kind.inputs.map (InputSlot.mk kind index))
        ((signals port).map Signal.width)) >>= fun _ =>
          takePorts descriptor kind take? count (index + 1) others >>= fun taken =>
            .ok (port :: taken.1, taken.2)) := by
  have checked : checkWidths descriptor (kind.portName index)
      (kind.inputs.zip (signals port ++ others)) =
        refuse (firstMisfit? descriptor (kind.inputs.map (InputSlot.mk kind index))
          ((signals port).map Signal.width)) := by
    rw [checkWidths_eq, List.map_append,
      firstMisfit?_append_left descriptor (length_inputs arity port index)]
  rw [takePorts, found]
  simp only [checked]
  rfl

private theorem takePorts_spec (descriptor : Descriptor) {port : List Signal → Except Breach α}
    (splits : Stepwise.Splits kind port take?)
    (taken : ∀ {given : List Signal} {port : α} {rest : List Signal},
      take? given = some (port, rest) → given = signals port ++ rest)
    (count index : Nat) (given : List Signal) (later : List InputSlot) :
    (∀ fault, takePorts descriptor kind take? count index given = .error fault →
      given.length < count * kind.arity ∧ fault = .breach .signalsExhausted ∨
        firstMisfit? descriptor (kindSlots kind index count ++ later) (given.map Signal.width) =
          some fault) ∧
    ∀ ports rest, takePorts descriptor kind take? count index given = .ok (ports, rest) →
      given.length = count * kind.arity + rest.length ∧
        firstMisfit? descriptor (kindSlots kind index count ++ later) (given.map Signal.width) =
          firstMisfit? descriptor later (rest.map Signal.width) := by
  -- By the ports that are left to take. The slots after theirs are not looked at if one of their own
  -- signals does not fit, and are all that is left to look at if all do.
  induction count generalizing index given with
  | zero =>
    refine ⟨fun fault failed => (by cases failed), fun ports rest success => ?_⟩
    cases success
    exact ⟨by omega, rfl⟩
  | succ count ih =>
    rw [Nat.succ_mul]
    cases found : take? given with
    | none =>
      have short := splits.length_lt found
      rw [takePorts, found]
      exact ⟨fun fault failed => .inl ⟨by omega, (Except.error.inj failed).symm⟩,
        fun ports rest success => by cases success⟩
    | some first =>
      obtain ⟨port, others⟩ := first
      obtain rfl := taken found
      obtain ⟨failing, succeeding⟩ := ih (index + 1) others
      rw [firstMisfit?_kindSlots_succ arity, takePorts_succ arity descriptor found,
        List.length_append, arity]
      cases firstMisfit? descriptor (kind.inputs.map (InputSlot.mk kind index))
          ((signals port).map Signal.width) with
      | some fault =>
        exact ⟨fun error failed => .inr (congrArg some (Except.error.inj failed)),
          fun ports rest success => by cases success⟩
      | none =>
        simp only [refuse_none, ok_bind, Option.none_or]
        cases remaining : takePorts descriptor kind take? count (index + 1) others with
        | error fault =>
          refine ⟨fun error failed => ?_, fun ports rest success => (by cases success)⟩
          cases failed
          exact (failing fault remaining).imp_left (And.imp_left fun short => by omega)
        | ok pair =>
          refine ⟨fun error failed => (by cases failed), fun ports rest success => ?_⟩
          cases success
          obtain ⟨counted, fitting⟩ := succeeding _ _ remaining
          exact ⟨by omega, fitting⟩

end

/-- Signals of the expected number are refused if they run out, or for the first that does not fit.
If they are taken, all fit. -/
theorem ofSignals_spec {descriptor : Descriptor} {given : List Signal}
    (counted : given.length = descriptor.expectedCount given.length) :
    (∀ fault, Interface.ofSignals descriptor given = .error fault →
      given.length < descriptor.inputCount ∧ fault = .breach .signalsExhausted ∨
        firstMisfit? descriptor descriptor.inputSlots (given.map Signal.width) = some fault) ∧
    ∀ interface, Interface.ofSignals descriptor given = .ok interface →
      firstMisfit? descriptor descriptor.inputSlots (given.map Signal.width) = none := by
  have readSpec := takePorts_spec (fun _ => rfl) descriptor Stepwise.splits_readPort
    ReadPort.take?_eq_some_iff.mp descriptor.readPorts 0
  have readWriteSpec := takePorts_spec (fun _ => rfl) descriptor Stepwise.splits_readWritePort
    ReadWritePort.take?_eq_some_iff.mp descriptor.readWritePorts 0
  have writeSpec := takePorts_spec (fun _ => rfl) descriptor Stepwise.splits_writePort
    WritePort.take?_eq_some_iff.mp descriptor.writePorts 0
  simp only [PortKind.arity_read, PortKind.arity_readWrite, PortKind.arity_write]
    at readSpec readWriteSpec writeSpec
  have total := descriptor.inputCount_eq
  rw [Interface.ofSignals, if_neg (not_not.mpr counted), inputSlots_eq]
  cases read : takePorts descriptor .read ReadPort.take? descriptor.readPorts 0 given with
  | error fault =>
    refine ⟨fun error failed => ?_, fun interface success => (by cases success)⟩
    cases failed
    exact ((readSpec given _).1 fault read).imp_left (And.imp_left fun short => by omega)
  | ok first =>
    obtain ⟨readCounted, readFits⟩ := (readSpec given _).2 _ _ read
    rw [readFits]
    cases readWrite : takePorts descriptor .readWrite ReadWritePort.take?
        descriptor.readWritePorts 0 first.2 with
    | error fault =>
      simp only [ok_bind, readWrite, error_bind]
      refine ⟨fun error failed => ?_, fun interface success => (by cases success)⟩
      cases failed
      exact ((readWriteSpec first.2 _).1 fault readWrite).imp_left
        (And.imp_left fun short => by omega)
    | ok second =>
      obtain ⟨readWriteCounted, readWriteFits⟩ := (readWriteSpec first.2 _).2 _ _ readWrite
      rw [readWriteFits, ← List.append_nil (kindSlots ..)]
      cases write : takePorts descriptor .write WritePort.take? descriptor.writePorts 0
          second.2 with
      | error fault =>
        simp only [ok_bind, readWrite, write, error_bind]
        refine ⟨fun error failed => ?_, fun interface success => (by cases success)⟩
        cases failed
        exact ((writeSpec second.2 []).1 fault write).imp_left
          (And.imp_left fun short => by omega)
      | ok third =>
        simp only [ok_bind, readWrite, write]
        refine ⟨fun error failed => (by cases failed), fun interface success => ?_⟩
        rw [((writeSpec second.2 []).2 _ _ write).2]
        rfl

/-- As many signals as a memory has inputs are its ports, unless one does not fit. -/
theorem ofSignals_eq_of_length {descriptor : Descriptor} {given : List Signal}
    (counted : given.length = descriptor.inputCount) :
    ∃ interface, Interface.ofSignals descriptor given =
      (refuse (firstMisfit? descriptor descriptor.inputSlots (given.map Signal.width)) >>=
        fun _ => .ok interface) := by
  have passes : given.length = descriptor.expectedCount given.length := by
    rw [counted, descriptor.expectedCount_inputCount]
  obtain ⟨failing, succeeding⟩ := ofSignals_spec passes
  cases taken : Interface.ofSignals descriptor given with
  | error fault =>
    rcases failing fault taken with ⟨short, -⟩ | unfit
    · omega
    · exact ⟨⟨[], [], []⟩, by rw [unfit]; rfl⟩
  | ok interface => exact ⟨interface, by rw [succeeding interface taken]; rfl⟩

theorem length_inputs_start (name : String) (ports : List Port) :
    (ModuleDraft.start name ports).inputs.length = (ports.filter Port.isInput).length :=
  List.length_map ..

/-- Inputs of the right number are the ports of a memory, unless one does not fit. -/
theorem ofSignals_of_counted {descriptor : Descriptor} (name : String) {ports : List Port}
    (counted : (ports.filter Port.isInput).length = descriptor.inputCount) :
    ∃ interface, Interface.ofSignals descriptor (ModuleDraft.start name ports).inputs =
      (refuse (inputFault? descriptor (ports.filter Port.isInput)) >>= fun _ => .ok interface) := by
  have widths : (ModuleDraft.start name ports).inputs.map Signal.width =
      (ports.filter Port.isInput).map Port.width := by
    simp only [ModuleDraft.inputs, ModuleDraft.start, List.map_map]
    rfl
  simp only [inputFault?, ← descriptor.inputCount_eq, ← widths]
  rw [if_neg (not_not.mpr counted)]
  exact ofSignals_eq_of_length ((length_inputs_start name ports).trans counted)

/-- The inputs of a memory are its ports, unless something is wrong with them. -/
theorem ofSignals_eq {descriptor : Descriptor} (fits : descriptor.inputCount < wordRange)
    (name : String) (ports : List Port) :
    ∃ interface, Interface.ofSignals descriptor (ModuleDraft.start name ports).inputs =
      (refuse (inputFault? descriptor (ports.filter Port.isInput)) >>= fun _ => .ok interface) := by
  by_cases counted : (ports.filter Port.isInput).length = descriptor.inputCount
  · exact ofSignals_of_counted name counted
  · refine ⟨⟨[], [], []⟩, ?_⟩
    have expected := descriptor.expectedCount_of_lt fits (ports.filter Port.isInput).length
    have miscounted : (ModuleDraft.start name ports).inputs.length ≠
        descriptor.expectedCount (ModuleDraft.start name ports).inputs.length := by
      rw [length_inputs_start, expected]
      exact counted
    rw [ofSignals_of_miscounted miscounted, length_inputs_start, expected]
    simp only [inputFault?, ← descriptor.inputCount_eq]
    rw [if_pos counted]
    rfl

theorem length_of_inputFault?_eq_none {descriptor : Descriptor} {inputs : List Port}
    (faultless : inputFault? descriptor inputs = none) :
    inputs.length = descriptor.inputCount := by
  simp only [inputFault?, ← descriptor.inputCount_eq] at faultless
  split at faultless
  · cases faultless
  · rename_i counted
    exact not_not.mp counted

/-- The outputs of a memory are accepted, unless something is wrong with them. -/
theorem checkOutputs_eq (descriptor : Descriptor) (outputs : List Port) :
    checkOutputs descriptor outputs = refuse (outputFault? descriptor outputs) := by
  have expected : descriptor.readPorts + descriptor.readWritePorts = descriptor.outputCount := rfl
  simp only [checkOutputs, outputFault?, expected]
  split
  · rfl
  · cases outputs.find? fun port => port.width ≠ descriptor.dataWidth <;> rfl

section

variable (scope : Scope) (name : String) (options : LoweringOptions) {ports : List Port}
variable {descriptor : Descriptor}

theorem lower_of_refusal?_eq_some (fits : descriptor.inputCount < wordRange)
    {error : LoweringError} (found : refusal? descriptor ports = some error) :
    lower scope name ports descriptor options = .error error := by
  obtain ⟨interface, grouped⟩ := ofSignals_eq fits name ports
  have checked : checkOutputs descriptor (ModuleDraft.start name ports).outputs =
      refuse (outputFault? descriptor (ports.filter fun port => !port.isInput)) :=
    checkOutputs_eq descriptor _
  unfold refusal? at found
  unfold lower
  cases valid : descriptor.validate with
  | error fault =>
    rw [valid] at found
    cases found
    rfl
  | ok done =>
    simp only [valid] at found
    simp only [grouped, checked]
    rcases Option.or_eq_some_iff.mp found with input | ⟨noInput, output⟩
    · rw [input]
      rfl
    · rw [noInput, output]
      rfl

theorem refusal?_eq_none_iff :
    refusal? descriptor ports = none ↔ descriptor.validate = .ok () ∧
      inputFault? descriptor (ports.filter Port.isInput) = none ∧
      outputFault? descriptor (ports.filter fun port => !port.isInput) = none := by
  unfold refusal?
  cases descriptor.validate with
  | error fault => simp
  | ok done => simp

theorem lower_of_refusal?_eq_none (passed : refusal? descriptor ports = none) :
    ∃ module, lower scope name ports descriptor options = .ok module ∧
      module.name = name ∧ module.ports = ports := by
  obtain ⟨valid, inputs, outputs⟩ := refusal?_eq_none_iff.mp passed
  obtain ⟨interface, grouped⟩ := ofSignals_of_counted name (length_of_inputFault?_eq_none inputs)
  have checked := checkOutputs_eq descriptor (ModuleDraft.start name ports).outputs
  rw [inputs] at grouped
  rw [show outputFault? descriptor (ModuleDraft.start name ports).outputs = none from outputs]
    at checked
  obtain ⟨layout, module, lowered, sameName, samePorts, -, givenPorts, -⟩ :=
    lower_of_checks scope options valid grouped checked
  exact ⟨module, lowered, sameName, samePorts.trans givenPorts⟩

/-- A memory that is lowered is not refused, however many inputs it has. -/
theorem refusal?_eq_none_of_lower {module : Module}
    (lowered : lower scope name ports descriptor options = .ok module) :
    refusal? descriptor ports = none := by
  obtain ⟨valid, ⟨interface, grouped⟩, checked⟩ := checks_of_lower lowered
  refine refusal?_eq_none_iff.mpr ⟨valid, ?_, ?_⟩
  · have counted := (ofSignals_ok grouped).1.length_eq
    rw [length_inputs_start] at counted
    obtain ⟨other, same⟩ := ofSignals_of_counted name counted
    rw [grouped] at same
    obtain ⟨⟨⟩, faultless, -⟩ := bind_eq_ok_iff.mp same.symm
    exact refuse_eq_ok_iff.mp faultless
  · rw [checkOutputs_eq] at checked
    exact refuse_eq_ok_iff.mp checked

/-- The values that the ports give fit the outputs, once the checks have passed. -/
theorem driveOutputs_of_checks {interface : Interface} {values : List Signal}
    {built : ModuleDraft} (valid : descriptor.validate = .ok ())
    (grouped : Interface.ofSignals descriptor (ModuleDraft.start name ports).inputs = .ok interface)
    (checked : checkOutputs descriptor (ModuleDraft.start name ports).outputs = .ok ())
    (assembled : assemble scope descriptor options interface (ModuleDraft.start name ports) =
      .ok (values, built)) :
    ∃ driven, built.driveOutputs values = .ok driven := by
  obtain ⟨layout, module, lowered, -⟩ := lower_of_checks scope options valid grouped checked
  simp only [lower, valid, grouped, checked, assembled, liftBreach, ok_bind] at lowered
  obtain ⟨driven, lifted, -⟩ := bind_eq_ok_iff.mp lowered
  cases driving : built.driveOutputs values with
  | error cause =>
    rw [driving] at lifted
    cases lifted
  | ok after => exact ⟨after, rfl⟩

end

theorem refusal?_ne_breach (descriptor : Descriptor) (ports : List Port) (breach : Breach) :
    refusal? descriptor ports ≠ some (.breach breach) := by
  intro found
  unfold refusal? at found
  split at found
  · cases found
  · rcases Option.or_eq_some_iff.mp found with input | ⟨-, output⟩
    · simp only [inputFault?] at input
      split at input
      · cases input
      · obtain ⟨⟨slot, width⟩, -, misfit⟩ := List.exists_of_findSome?_eq_some input
        simp only [InputSlot.misfit?_eq] at misfit
        split at misfit <;> cases misfit
    · simp only [outputFault?] at output
      split at output
      · cases output
      · obtain ⟨port, -, same⟩ := Option.map_eq_some_iff.mp output
        cases same

/-- Lowering fails with the first fault in the order of the checks, if a word holds the number of
inputs, and otherwise answers a module of the given name and ports. Checking every contract on the
way changes no answer, and none is broken; once the ports are connected, the values they give always
drive the outputs. -/
theorem lowered_unless_refused (scope : Scope) (name : String) (ports : List Port)
    (descriptor : Descriptor) (options : LoweringOptions) :
    (descriptor.inputCount < wordRange →
      (∀ error, lower scope name ports descriptor options = .error error ↔
        refusal? descriptor ports = some error) ∧
      ∀ breach, Stepwise.lower scope name ports descriptor options ≠ .error (.breach breach)) ∧
    (refusal? descriptor ports = none →
      ∃ module, lower scope name ports descriptor options = .ok module ∧
        module.name = name ∧ module.ports = ports) ∧
    (∀ module, lower scope name ports descriptor options = .ok module →
      refusal? descriptor ports = none) ∧
    Stepwise.lower scope name ports descriptor options =
      lower scope name ports descriptor options ∧
    ∀ interface values built, descriptor.validate = .ok () →
      Stepwise.ofSignals descriptor (ModuleDraft.start name ports).inputs = .ok interface →
      checkOutputs descriptor (ModuleDraft.start name ports).outputs = .ok () →
      Stepwise.assemble scope descriptor options interface (ModuleDraft.start name ports) =
        .ok (values, built) →
      ∃ driven, built.driveOutputs values = .ok driven := by
  refine ⟨fun fits => ?_, lower_of_refusal?_eq_none scope name options,
    fun module => refusal?_eq_none_of_lower scope name options,
    Stepwise.lower_eq scope name ports descriptor options, ?_⟩
  · have fails : ∀ error, lower scope name ports descriptor options = .error error ↔
        refusal? descriptor ports = some error := by
      intro error
      constructor
      · intro failed
        cases found : refusal? descriptor ports with
        | none =>
          obtain ⟨module, lowered, -⟩ := lower_of_refusal?_eq_none scope name options found
          rw [lowered] at failed
          cases failed
        | some fault =>
          have same := lower_of_refusal?_eq_some scope name options fits found
          rw [failed] at same
          rw [Except.error.inj same]
      · exact lower_of_refusal?_eq_some scope name options fits
    refine ⟨fails, fun breach failed => ?_⟩
    rw [Stepwise.lower_eq] at failed
    exact refusal?_ne_breach descriptor ports breach ((fails _).mp failed)
  · intro interface values built valid grouped checked assembled
    rw [Stepwise.ofSignals_eq] at grouped
    rw [Stepwise.assemble_eq] at assembled
    exact driveOutputs_of_checks scope name options valid grouped checked assembled

/-- A read port whose enable is too wide, and two outputs. -/
def wideEnable : List Port :=
  [.input 1 "clk", .output 3 "y", .input 2 "en", .output 8 "z", .input 9 "addr"]

/-- A wrong width among the inputs comes before a wrong number of outputs. -/
theorem lowered_unless_refused_wideEnable :
    let descriptor := (Descriptor.ofSize 8 4).withPorts 1 0 0
    descriptor.inputCount < wordRange ∧
      lower .top "memory" wideEnable descriptor .standard =
        .error (.signalWidth "R0" "en" 1 2) ∧
      ∀ breach, Stepwise.lower .top "memory" wideEnable descriptor .standard ≠
        .error (.breach breach) := by
  intro descriptor
  have fits : descriptor.inputCount < wordRange := by decide
  have refused : refusal? descriptor wideEnable = some (.signalWidth "R0" "en" 1 2) := by decide
  obtain ⟨fails, unbroken⟩ :=
    (lowered_unless_refused .top "memory" wideEnable descriptor .standard).1 fits
  exact ⟨fits, (fails _).mpr refused, unbroken⟩

end Multiport.Memory
