import Multiport.Proofs.Memory.Refusal

/-! The signals given for a memory, as its inputs. Every input is given one signal, in the order of
the inputs, and an interface is nothing but the signals it was taken from: the two determine each
other. If there is no interface, then there are too few or too many signals, or one of them does not
have the width of the input it is given for. Only inputs that are more than a word can count are
counted wrongly, and then too few signals may be found out late. -/
namespace Multiport.Memory

/-- The input can be given the signal: it has the required width, or none is required. -/
def InputSlot.Takes (descriptor : Descriptor) (slot : InputSlot) (signal : Signal) : Prop :=
  ∀ required, descriptor.requiredWidth? slot.input.role = some required → signal.width = required

/-- What is wrong with signals given for a memory: their number, or else the width of the first of
them that cannot be given to the input at its place. -/
inductive SignalsFault (descriptor : Descriptor) (signals : List Signal) :
    LoweringError → Prop where
  | count {expected : Nat}
      (inputs : expected =
        3 * descriptor.readPorts + 6 * descriptor.readWritePorts + 5 * descriptor.writePorts)
      (miscounted : signals.length ≠ expected) :
      SignalsFault descriptor signals (.signalCount expected signals.length)
  | width {slot : InputSlot} {signal : Signal} {required : Nat}
      (counted : signals.length =
        3 * descriptor.readPorts + 6 * descriptor.readWritePorts + 5 * descriptor.writePorts)
      (first : First (descriptor.inputSlots.zip signals)
        (fun pair => ¬pair.1.Takes descriptor pair.2) (slot, signal))
      (requires : descriptor.requiredWidth? slot.input.role = some required) :
      SignalsFault descriptor signals (.signalWidth (slot.kind.portName slot.index)
        slot.input.name required signal.width)

/-- What is wrong with signals for more inputs than a word can count. Their number is held against
the remainder in the word; a list of just so many signals is found too short later. -/
inductive OverflowFault (descriptor : Descriptor) (signals : List Signal) :
    LoweringError → Prop where
  | count (miscounted : signals.length ≠ descriptor.inputWord) :
      OverflowFault descriptor signals (.signalCount descriptor.inputWord signals.length)
  | width {slot : InputSlot} {signal : Signal} {required : Nat}
      (counted : signals.length = descriptor.inputWord)
      (first : First (descriptor.inputSlots.zip signals)
        (fun pair => ¬pair.1.Takes descriptor pair.2) (slot, signal))
      (requires : descriptor.requiredWidth? slot.input.role = some required) :
      OverflowFault descriptor signals (.signalWidth (slot.kind.portName slot.index)
        slot.input.name required signal.width)
  | exhausted (counted : signals.length = descriptor.inputWord) :
      OverflowFault descriptor signals (.breach .signalsExhausted)

def ReadPort.input? (port : ReadPort) : InputRole → Option Signal
  | .clock => some port.clock
  | .enable => some port.enable
  | .address => some port.address
  | .writeMode | .writeMask | .writeData => none

def WritePort.input? (port : WritePort) : InputRole → Option Signal
  | .clock => some port.clock
  | .enable => some port.enable
  | .address => some port.address
  | .writeMask => some port.mask
  | .writeData => some port.data
  | .writeMode => none

/-- The signal of a read-write port that is for something. -/
def ReadWritePort.input? (port : ReadWritePort) : InputRole → Option Signal
  | .clock => some port.clock
  | .enable => some port.enable
  | .address => some port.address
  | .writeMode => some port.mode
  | .writeMask => some port.mask
  | .writeData => some port.data

def Interface.input? (interface : Interface) (slot : InputSlot) : Option Signal :=
  match slot.kind with
  | .read => interface.read[slot.index]?.bind fun port => port.input? slot.input.role
  | .readWrite => interface.readWrite[slot.index]?.bind fun port => port.input? slot.input.role
  | .write => interface.write[slot.index]?.bind fun port => port.input? slot.input.role

section

variable {descriptor : Descriptor} {slot : InputSlot} {signal : Signal}

theorem InputSlot.misfit?_eq_none_iff :
    slot.misfit? descriptor signal.width = none ↔ slot.Takes descriptor signal := by
  unfold InputSlot.misfit? InputSlot.Takes
  cases descriptor.requiredWidth? slot.input.role <;> simp

theorem InputSlot.misfit?_eq_some_iff {error : LoweringError} :
    slot.misfit? descriptor signal.width = some error ↔
      ∃ required, descriptor.requiredWidth? slot.input.role = some required ∧
        signal.width ≠ required ∧
        error = .signalWidth (slot.kind.portName slot.index) slot.input.name required
          signal.width := by
  unfold InputSlot.misfit?
  cases descriptor.requiredWidth? slot.input.role <;> simp [eq_comm]

theorem InputSlot.misfit?_of_not_takes {required : Nat} (misfit : ¬slot.Takes descriptor signal)
    (requires : descriptor.requiredWidth? slot.input.role = some required) :
    slot.misfit? descriptor signal.width = some
      (.signalWidth (slot.kind.portName slot.index) slot.input.name required signal.width) := by
  refine misfit?_eq_some_iff.mpr ⟨required, requires, fun same => misfit ?_, rfl⟩
  intro another alike
  rw [same, Option.some.inj (requires.symm.trans alike)]

end

section

variable {descriptor : Descriptor} {signals : List Signal}

theorem firstMisfit?_map_width (slots : List InputSlot) :
    firstMisfit? descriptor slots (signals.map Signal.width) =
      (slots.zip signals).findSome? fun pair => pair.1.misfit? descriptor pair.2.width := by
  rw [firstMisfit?, List.zip_map_right, List.findSome?_map]
  rfl

theorem firstMisfit?_eq_some_iff {slots : List InputSlot} {error : LoweringError} :
    firstMisfit? descriptor slots (signals.map Signal.width) = some error ↔
      ∃ pair, First (slots.zip signals) (fun pair => ¬pair.1.Takes descriptor pair.2) pair ∧
        pair.1.misfit? descriptor pair.2.width = some error := by
  rw [firstMisfit?_map_width]
  exact findSome?_eq_some_iff_first fun pair => by
    rw [InputSlot.misfit?_eq_none_iff, not_not]

/-- Signals are refused for what is wrong with them, if a word holds the number of inputs. -/
theorem ofSignals_eq_error_iff (fits : descriptor.inputCount < wordRange)
    {error : LoweringError} :
    Interface.ofSignals descriptor signals = .error error ↔
      SignalsFault descriptor signals error := by
  by_cases counted : signals.length = descriptor.inputCount
  · obtain ⟨interface, steps⟩ := ofSignals_eq_of_length counted
    have refused : Interface.ofSignals descriptor signals = .error error ↔
        firstMisfit? descriptor descriptor.inputSlots (signals.map Signal.width) = some error := by
      rw [steps]
      cases firstMisfit? descriptor descriptor.inputSlots (signals.map Signal.width) <;> simp
    rw [refused, firstMisfit?_eq_some_iff]
    rw [descriptor.inputCount_eq] at counted
    constructor
    · rintro ⟨⟨slot, signal⟩, first, misfit⟩
      obtain ⟨required, requires, -, rfl⟩ := InputSlot.misfit?_eq_some_iff.mp misfit
      exact .width counted first requires
    · intro fault
      cases fault with
      | count inputs miscounted => exact absurd (counted.trans inputs.symm) miscounted
      | width _ first requires =>
        exact ⟨_, first, InputSlot.misfit?_of_not_takes first.holds requires⟩
  · have expected := descriptor.expectedCount_of_lt fits signals.length
    rw [ofSignals_of_miscounted (by rwa [expected]), expected]
    rw [descriptor.inputCount_eq] at counted ⊢
    constructor
    · intro refused
      cases refused
      exact .count rfl counted
    · intro fault
      cases fault with
      | count inputs _ =>
        subst inputs
        rfl
      | width right => exact absurd right counted

/-- Signals for more inputs than a word can count are never enough. -/
theorem exists_overflowFault (overflows : wordRange ≤ descriptor.inputCount)
    (listed : signals.length < wordRange) :
    ∃ error, Interface.ofSignals descriptor signals = .error error ∧
      OverflowFault descriptor signals error := by
  have expected : descriptor.expectedCount signals.length = descriptor.inputWord := if_pos listed
  by_cases counted : signals.length = descriptor.inputWord
  · cases taken : Interface.ofSignals descriptor signals with
    | ok interface =>
      -- Ports that were taken would have used more signals than can be listed.
      have whole := (ofSignals_ok taken).1.length_eq
      omega
    | error error =>
      refine ⟨error, rfl, ?_⟩
      rcases (ofSignals_spec (counted.trans expected.symm)).1 error taken with ⟨-, rfl⟩ | unfit
      · exact .exhausted counted
      · obtain ⟨⟨slot, signal⟩, first, misfit⟩ := firstMisfit?_eq_some_iff.mp unfit
        obtain ⟨required, requires, -, rfl⟩ := InputSlot.misfit?_eq_some_iff.mp misfit
        exact .width counted first requires
  · exact ⟨_, ofSignals_of_miscounted (by rwa [expected]), expected ▸ .count counted⟩

/-- Signals are taken apart into the ports that they are the signals of. -/
theorem ofSignals_eq_ok_iff {interface : Interface} :
    Interface.ofSignals descriptor signals = .ok interface ↔
      interface.Groups descriptor signals ∧ interface.Sized descriptor :=
  ⟨ofSignals_ok, fun ⟨groups, sized⟩ => ofSignals_of_groups groups sized⟩

end

/-- The inputs of the ports of one kind, in order, have the signals of these ports. -/
theorem flatMap_inputs {α : Type} (kind : PortKind) (signals : α → List Signal)
    (input? : α → InputRole → Option Signal)
    (fields : ∀ port, (kind.inputs.map fun input => input? port input.role) =
      (signals port).map some) (ports : List α) :
    ((List.range ports.length).flatMap fun index => kind.inputs.map fun input =>
        ports[index]?.bind fun port => input? port input.role) =
      (ports.flatMap signals).map some := by
  induction ports with
  | nil => rfl
  | cons port rest ih =>
    rw [List.length_cons, List.range_succ_eq_map, List.flatMap_cons, List.flatMap_map,
      List.flatMap_cons, List.map_append, ← ih, ← fields]
    rfl

/-- An interface has for each input the signal that was given at its place. -/
theorem Interface.Groups.inputs {descriptor : Descriptor} {signals : List Signal}
    {interface : Interface} (groups : interface.Groups descriptor signals) :
    descriptor.inputSlots.map interface.input? = signals.map some := by
  have read := flatMap_inputs .read ReadPort.signals ReadPort.input? (fun _ => rfl) interface.read
  have readWrite := flatMap_inputs .readWrite ReadWritePort.signals ReadWritePort.input?
    (fun _ => rfl) interface.readWrite
  have write := flatMap_inputs .write WritePort.signals WritePort.input? (fun _ => rfl)
    interface.write
  rw [← groups.signals, Interface.signals, List.map_append, List.map_append, ← read, ← readWrite,
    ← write, groups.read, groups.readWrite, groups.write, List.append_assoc]
  simp only [Descriptor.inputSlots, Descriptor.eachPort, Descriptor.kindOrder, List.flatMap_cons,
    List.flatMap_nil, List.append_nil, List.map_append, List.map_flatMap, List.map_map]
  rfl

/-- Signals are taken apart from the left without loss. They are refused for their number, or else
for the first that does not have the width of the input at its place. Otherwise the ports are as
many of each kind as there should be, and their signals one after another are the given ones, each
found as the input at its place. Any ports that are as many and have these widths are what their
own signals are taken apart into. Counting the signals off one by one never leaves any over. If the
inputs are more than a word can count, every list is refused, though not always for its number. -/
theorem signals_partitioned (descriptor : Descriptor) (signals : List Signal) :
    (descriptor.inputCount < wordRange →
      ∀ error, Interface.ofSignals descriptor signals = .error error ↔
        SignalsFault descriptor signals error) ∧
    (∀ interface, Interface.ofSignals descriptor signals = .ok interface ↔
      interface.Groups descriptor signals ∧ interface.Sized descriptor) ∧
    (∀ interface, Interface.ofSignals descriptor signals = .ok interface →
      descriptor.inputSlots.map interface.input? = signals.map some) ∧
    (∀ interface : Interface, interface.read.length = descriptor.readPorts →
      interface.readWrite.length = descriptor.readWritePorts →
      interface.write.length = descriptor.writePorts → interface.Sized descriptor →
      Interface.ofSignals descriptor interface.signals = .ok interface) ∧
    Stepwise.ofSignals descriptor signals = Interface.ofSignals descriptor signals ∧
    (wordRange ≤ descriptor.inputCount → signals.length < wordRange →
      ∃ error, Interface.ofSignals descriptor signals = .error error ∧
        OverflowFault descriptor signals error) := by
  refine ⟨fun fits _ => ofSignals_eq_error_iff fits, fun _ => ofSignals_eq_ok_iff, ?_, ?_,
    Stepwise.ofSignals_eq descriptor signals, exists_overflowFault⟩
  · intro interface taken
    exact (ofSignals_eq_ok_iff.mp taken).1.inputs
  · intro interface read readWrite write sized
    exact ofSignals_eq_ok_iff.mpr ⟨⟨read, readWrite, write, rfl⟩, sized⟩

/-- A port of each kind; what is for the mode and for the mask has the same width. -/
def onePortEach : Interface where
  read := [⟨.ident "a" 1, .ident "b" 1, .ident "c" 7⟩]
  readWrite := [⟨.ident "d" 1, .ident "e" 1, .ident "f" 2, .ident "g" 1, .ident "h" 1, .x 8⟩]
  write := [⟨.ident "d" 1, .ident "i" 1, .x 3, .ident "j" 1, .ident "k" 8⟩]

/-- As many read ports as make the number of their inputs two more than a word can hold. -/
def overflowing : Descriptor := (Descriptor.ofSize 8 4).withPorts 6148914691236517206 0 0

theorem signals_partitioned_onePortEach_overflowing :
    let descriptor := (Descriptor.ofSize 8 4).withPorts 1 1 1
    (descriptor.inputCount < wordRange ∧
      Interface.ofSignals descriptor onePortEach.signals = .ok onePortEach ∧
      onePortEach.Groups descriptor onePortEach.signals ∧
      descriptor.inputSlots.map onePortEach.input? = onePortEach.signals.map some ∧
      SignalsFault descriptor (onePortEach.signals.set 1 (.x 4) |>.set 8 (.x 0))
        (.signalWidth "R0" "en" 1 4)) ∧
    (wordRange ≤ overflowing.inputCount ∧
      ∃ error, Interface.ofSignals overflowing [.ident "a" 1] = .error error ∧
        OverflowFault overflowing [.ident "a" 1] error) := by
  intro descriptor
  obtain ⟨-, groups, inputs, own, -⟩ := signals_partitioned descriptor onePortEach.signals
  have fits : descriptor.inputCount < wordRange := by decide
  obtain ⟨grouped, sized⟩ := (groups onePortEach).mp rfl
  have overflows : wordRange ≤ overflowing.inputCount := by decide
  exact ⟨⟨fits, own onePortEach rfl rfl rfl sized, grouped, inputs onePortEach rfl,
      ((signals_partitioned descriptor _).1 fits _).mp rfl⟩,
    overflows, (signals_partitioned overflowing [.ident "a" 1]).2.2.2.2.2 overflows (by decide)⟩

/-- Two signals pass for the inputs of too many ports, and run out before the first is made up. -/
theorem two_signals_pass_for_overflowing :
    let signals : List Signal := [.ident "a" 1, .ident "b" 1]
    overflowing.validate = .ok () ∧
      signals.length ≠ 3 * overflowing.readPorts + 6 * overflowing.readWritePorts +
        5 * overflowing.writePorts ∧
      Interface.ofSignals overflowing signals = .error (.breach .signalsExhausted) ∧
      ∀ expected actual,
        Interface.ofSignals overflowing signals ≠ .error (.signalCount expected actual) := by
  intro signals
  have exhausted : Interface.ofSignals overflowing signals = .error (.breach .signalsExhausted) :=
    rfl
  refine ⟨rfl, by decide, exhausted, fun expected actual miscounted => ?_⟩
  rw [exhausted] at miscounted
  cases miscounted

end Multiport.Memory
