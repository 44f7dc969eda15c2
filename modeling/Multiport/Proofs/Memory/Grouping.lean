import Multiport.Memory.Interface
import Multiport.Proofs.Outcome

namespace Multiport.Memory

theorem Descriptor.getD_writeStages? (descriptor : Descriptor) :
    descriptor.writeStages?.getD 0 = descriptor.writeLatency - 1 := by
  unfold writeStages?
  cases descriptor.writeLatency <;> rfl

theorem Descriptor.getD_readWriteStages? (descriptor : Descriptor) :
    descriptor.readWriteStages?.getD 0 =
      max descriptor.readLatency descriptor.writeLatency - 1 := by
  unfold readWriteStages?
  cases max descriptor.readLatency descriptor.writeLatency <;> rfl

/-- The signals of an interface in the order in which they are taken. -/
def Interface.signals (interface : Interface) : List Signal :=
  interface.read.flatMap ReadPort.signals ++ interface.readWrite.flatMap ReadWritePort.signals ++
    interface.write.flatMap WritePort.signals

/-- The ports of an interface are the given signals, taken from the left. -/
structure Interface.Groups (interface : Interface) (descriptor : Descriptor)
    (signals : List Signal) : Prop where
  read : interface.read.length = descriptor.readPorts
  readWrite : interface.readWrite.length = descriptor.readWritePorts
  write : interface.write.length = descriptor.writePorts
  signals : interface.signals = signals

/-- The signals of a port have the widths of their roles. -/
def Sized (descriptor : Descriptor) (kind : PortKind) (signals : List Signal) : Prop :=
  ∀ pair ∈ kind.inputs.zip signals, pair.1.role ≠ .address →
    pair.2.width = descriptor.inputWidth pair.1.role

/-- The ports of an interface have signals of the widths of their roles. -/
structure Interface.Sized (interface : Interface) (descriptor : Descriptor) : Prop where
  read : ∀ port ∈ interface.read, Memory.Sized descriptor .read port.signals
  readWrite : ∀ port ∈ interface.readWrite, Memory.Sized descriptor .readWrite port.signals
  write : ∀ port ∈ interface.write, Memory.Sized descriptor .write port.signals

theorem ReadPort.width_of_sized {descriptor : Descriptor} {port : ReadPort}
    (sized : Sized descriptor .read port.signals) :
    port.clock.width = 1 ∧ port.enable.width = 1 := by
  simpa [Sized, PortKind.inputs, signals, Descriptor.inputWidth] using sized

theorem WritePort.width_of_sized {descriptor : Descriptor} {port : WritePort}
    (sized : Sized descriptor .write port.signals) :
    port.clock.width = 1 ∧ port.enable.width = 1 ∧ port.mask.width = 1 ∧
      port.data.width = descriptor.dataWidth := by
  simpa [Sized, PortKind.inputs, signals, Descriptor.inputWidth] using sized

theorem ReadWritePort.width_of_sized {descriptor : Descriptor} {port : ReadWritePort}
    (sized : Sized descriptor .readWrite port.signals) :
    port.clock.width = 1 ∧ port.enable.width = 1 ∧ port.mode.width = 1 ∧ port.mask.width = 1 ∧
      port.data.width = descriptor.dataWidth := by
  simpa [Sized, PortKind.inputs, signals, Descriptor.inputWidth] using sized

private theorem checkWidths_eq_ok_iff {descriptor : Descriptor} {port : String}
    {pairs : List (PortInput × Signal)} :
    checkWidths descriptor port pairs = .ok () ↔ ∀ pair ∈ pairs, pair.1.role ≠ .address →
      pair.2.width = descriptor.inputWidth pair.1.role := by
  induction pairs with
  | nil => simp [checkWidths]
  | cons first rest ih =>
    obtain ⟨input, signal⟩ := first
    rw [checkWidths, List.forall_mem_cons, ← ih]
    split
    · rename_i faulty
      simp [faulty.1, faulty.2]
    · rename_i fitting
      have fits : input.role ≠ .address → signal.width = descriptor.inputWidth input.role :=
        fun other => Decidable.byContradiction fun different => fitting ⟨other, different⟩
      exact ⟨fun checked => ⟨fits, checked⟩, fun checked => checked.2⟩

private theorem zip_inputs {kind : PortKind} {signals rest : List Signal}
    (arity : signals.length = kind.arity) :
    kind.inputs.zip (signals ++ rest) = kind.inputs.zip signals := by
  have paired : (kind.inputs ++ []).zip (signals ++ rest) = _ := List.zip_append arity.symm
  simpa using paired

/-- Ports that are taken use up a beginning of the signals, and have the widths of their roles. -/
theorem takePorts_ok {α : Type} {descriptor : Descriptor} {kind : PortKind}
    {take? : List Signal → Option (α × List Signal)} {signals : α → List Signal}
    (taken : ∀ {given : List Signal} {port : α} {rest : List Signal},
      take? given = some (port, rest) → given = signals port ++ rest)
    (arity : ∀ port : α, (signals port).length = kind.arity)
    {count index : Nat} {given rest : List Signal} {ports : List α}
    (success : takePorts descriptor kind take? count index given = .ok (ports, rest)) :
    ports.length = count ∧ given = ports.flatMap signals ++ rest ∧
      ∀ port ∈ ports, Sized descriptor kind (signals port) := by
  induction count generalizing index given ports with
  | zero =>
    cases success
    simp
  | succ count ih =>
    simp only [takePorts] at success
    split at success
    · cases success
    · rename_i port later first
      obtain ⟨⟨⟩, checked, success⟩ := bind_eq_ok_iff.mp success
      obtain ⟨⟨others, left⟩, remaining, success⟩ := bind_eq_ok_iff.mp success
      cases success
      obtain ⟨length, same, sized⟩ := ih remaining
      have split := taken first
      have widths := checkWidths_eq_ok_iff.mp checked
      rw [split, zip_inputs (arity port)] at widths
      refine ⟨by simp [length], by simp [split, same], ?_⟩
      intro candidate member
      rcases List.mem_cons.mp member with rfl | later
      · exact widths
      · exact sized candidate later

private theorem takePorts_of_sized {α : Type} {descriptor : Descriptor} {kind : PortKind}
    {take? : List Signal → Option (α × List Signal)} (signals : α → List Signal)
    (takes : ∀ {given : List Signal} {port : α} {rest : List Signal},
      given = signals port ++ rest → take? given = some (port, rest))
    (arity : ∀ port : α, (signals port).length = kind.arity) (index : Nat) {ports : List α}
    (sized : ∀ port ∈ ports, Sized descriptor kind (signals port)) (rest : List Signal) :
    takePorts descriptor kind take? ports.length index (ports.flatMap signals ++ rest) =
      .ok (ports, rest) := by
  induction ports generalizing index with
  | nil => rfl
  | cons port others ih =>
    obtain ⟨first, later⟩ := List.forall_mem_cons.mp sized
    have taken : take? ((port :: others).flatMap signals ++ rest) =
        some (port, others.flatMap signals ++ rest) := takes (by simp)
    have checked : checkWidths descriptor (kind.portName index)
        (kind.inputs.zip ((port :: others).flatMap signals ++ rest)) = .ok () := by
      rw [List.flatMap_cons, List.append_assoc, zip_inputs (arity port)]
      exact checkWidths_eq_ok_iff.mpr first
    rw [List.length_cons, takePorts, taken]
    simp only [checked, ih (index + 1) later, ok_bind, pure_eq_ok]

/-- Ports that are taken for a descriptor leave nothing of signals that are no more than its
inputs. -/
theorem eq_nil_of_takePorts {descriptor : Descriptor} {signals afterRead afterReadWrite rest :
    List Signal} {read : List ReadPort} {readWrite : List ReadWritePort} {write : List WritePort}
    (enough : signals.length ≤ descriptor.inputCount)
    (readTaken : takePorts descriptor .read ReadPort.take? descriptor.readPorts 0 signals =
      .ok (read, afterRead))
    (readWriteTaken : takePorts descriptor .readWrite ReadWritePort.take?
      descriptor.readWritePorts 0 afterRead = .ok (readWrite, afterReadWrite))
    (writeTaken : takePorts descriptor .write WritePort.take? descriptor.writePorts 0
      afterReadWrite = .ok (write, rest)) : rest = [] := by
  obtain ⟨readCount, readSplit, -⟩ :=
    takePorts_ok ReadPort.take?_eq_some_iff.mp (fun _ => rfl) readTaken
  obtain ⟨readWriteCount, readWriteSplit, -⟩ :=
    takePorts_ok ReadWritePort.take?_eq_some_iff.mp (fun _ => rfl) readWriteTaken
  obtain ⟨writeCount, writeSplit, -⟩ :=
    takePorts_ok WritePort.take?_eq_some_iff.mp (fun _ => rfl) writeTaken
  rw [readSplit, readWriteSplit, writeSplit, descriptor.inputCount_eq] at enough
  simp only [List.length_append, List.length_flatMap, ReadPort.signals, WritePort.signals,
    ReadWritePort.signals, List.length_cons, List.length_nil, List.map_const',
    List.sum_replicate_nat, readCount, readWriteCount, writeCount] at enough
  exact List.eq_nil_of_length_eq_zero (by omega)

theorem ofSignals_of_miscounted {descriptor : Descriptor} {signals : List Signal}
    (miscounted : signals.length ≠ descriptor.expectedCount signals.length) :
    Interface.ofSignals descriptor signals =
      .error (.signalCount (descriptor.expectedCount signals.length) signals.length) := by
  rw [Interface.ofSignals, if_pos miscounted]
  rfl

theorem ofSignals_ok {descriptor : Descriptor} {signals : List Signal} {interface : Interface}
    (success : Interface.ofSignals descriptor signals = .ok interface) :
    interface.Groups descriptor signals ∧ interface.Sized descriptor := by
  unfold Interface.ofSignals at success
  split at success
  · cases success
  · rename_i counted
    obtain ⟨⟨read, afterRead⟩, readTaken, success⟩ := bind_eq_ok_iff.mp success
    obtain ⟨⟨readWrite, afterReadWrite⟩, readWriteTaken, success⟩ := bind_eq_ok_iff.mp success
    obtain ⟨⟨write, rest⟩, writeTaken, success⟩ := bind_eq_ok_iff.mp success
    cases success
    obtain ⟨readCount, readSplit, readSized⟩ :=
      takePorts_ok ReadPort.take?_eq_some_iff.mp (fun _ => rfl) readTaken
    obtain ⟨readWriteCount, readWriteSplit, readWriteSized⟩ :=
      takePorts_ok ReadWritePort.take?_eq_some_iff.mp (fun _ => rfl) readWriteTaken
    obtain ⟨writeCount, writeSplit, writeSized⟩ :=
      takePorts_ok WritePort.take?_eq_some_iff.mp (fun _ => rfl) writeTaken
    have enough := Descriptor.le_inputCount_of_eq_expectedCount (Decidable.not_not.mp counted)
    have nothing := eq_nil_of_takePorts enough readTaken readWriteTaken writeTaken
    refine ⟨⟨readCount, readWriteCount, writeCount, ?_⟩, ⟨readSized, readWriteSized, writeSized⟩⟩
    rw [readSplit, readWriteSplit, writeSplit, nothing, Interface.signals, List.append_nil,
      List.append_assoc]

/-- The ports of an interface take as many signals as the descriptor says. -/
theorem Interface.Groups.length_eq {descriptor : Descriptor} {signals : List Signal}
    {interface : Interface} (groups : interface.Groups descriptor signals) :
    signals.length = descriptor.inputCount := by
  rw [← groups.signals, descriptor.inputCount_eq, ← groups.read, ← groups.readWrite,
    ← groups.write]
  simp only [Interface.signals, List.length_append, List.length_flatMap, ReadPort.signals,
    ReadWritePort.signals, WritePort.signals, List.length_cons, List.length_nil,
    List.map_const', List.sum_replicate_nat]
  omega

theorem Interface.Groups.length_eq_expectedCount {descriptor : Descriptor} {signals : List Signal}
    {interface : Interface} (groups : interface.Groups descriptor signals) :
    signals.length = descriptor.expectedCount signals.length := by
  rw [groups.length_eq, descriptor.expectedCount_inputCount]

theorem ofSignals_of_groups {descriptor : Descriptor} {signals : List Signal}
    {interface : Interface} (groups : interface.Groups descriptor signals)
    (sized : interface.Sized descriptor) :
    Interface.ofSignals descriptor signals = .ok interface := by
  have read := takePorts_of_sized ReadPort.signals ReadPort.take?_eq_some_iff.mpr
    (fun _ => rfl) 0 sized.read
    (interface.readWrite.flatMap ReadWritePort.signals ++
      (interface.write.flatMap WritePort.signals ++ []))
  have readWrite := takePorts_of_sized ReadWritePort.signals ReadWritePort.take?_eq_some_iff.mpr
    (fun _ => rfl) 0 sized.readWrite (interface.write.flatMap WritePort.signals ++ [])
  have write := takePorts_of_sized WritePort.signals WritePort.take?_eq_some_iff.mpr
    (fun _ => rfl) 0 sized.write []
  have split : signals = interface.read.flatMap ReadPort.signals ++
      (interface.readWrite.flatMap ReadWritePort.signals ++
        (interface.write.flatMap WritePort.signals ++ [])) := by
    rw [← groups.signals, Interface.signals, List.append_nil, List.append_assoc]
  rw [groups.read] at read
  rw [groups.readWrite] at readWrite
  rw [groups.write] at write
  rw [Interface.ofSignals, if_neg (Decidable.not_not.mpr groups.length_eq_expectedCount), split]
  simp only [read, readWrite, write, ok_bind, pure_eq_ok]

end Multiport.Memory
