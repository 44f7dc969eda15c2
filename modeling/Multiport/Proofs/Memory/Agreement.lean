import Multiport.Proofs.Memory.Pairing
import Multiport.Proofs.Memory.Reading
import Multiport.Proofs.Memory.Storage

/-! Read-write ports against pairs of a read port and a write port. A memory with read-write ports
and the memory in which these are separated run side by side, the second driven with what the inputs
of the first say about reads and writes. Behind as many registers both have the same, so that they
write the same words and show the same values, whatever is known of the inputs. -/
namespace Multiport.Memory

open PortKind (signalName)

/-- States of two memories that run side by side. Inputs are driven with any values, known or not;
all clocks rise in both memories while the inputs of the second mirror those of the first. -/
inductive Lockstep (count : Nat) (jointStart splitStart : Simulator) :
    Simulator → Simulator → Prop where
  | start : Lockstep count jointStart splitStart jointStart splitStart
  | drive {joint split nextJoint nextSplit : Simulator}
      (before : Lockstep count jointStart splitStart joint split)
      (jointDriven : joint.Redriven nextJoint) (splitDriven : split.Redriven nextSplit) :
      Lockstep count jointStart splitStart nextJoint nextSplit
  | tick {joint split : Simulator} (before : Lockstep count jointStart splitStart joint split)
      (mirrors : Mirrors count joint split) :
      Lockstep count jointStart splitStart joint.tick.2 split.tick.2

/-- Both memories hold the same words, and while the inputs of the second mirror those of the first,
each read-write port shows what the read port of its place does. The next tick succeeds in both, and
the inputs of the second can be made to mirror those of the first. -/
structure Agree (descriptor : Descriptor) (jointStorage splitStorage : String)
    (joint split : Simulator) : Prop where
  words : ∀ address < descriptor.depth, ∃ word,
    joint.memory jointStorage address = .ok word ∧ split.memory splitStorage address = .ok word
  outputs : Mirrors descriptor.readWritePorts joint split →
    ∀ index < descriptor.readWritePorts, ∃ shown,
      joint.get (signalName .readWrite index "rdata") = .ok shown ∧
        split.get (signalName .read index "data") = .ok shown
  ticks : joint.tick.1 = .ok () ∧ split.tick.1 = .ok ()
  follows : ∃ next, split.Redriven next ∧ Mirrors descriptor.readWritePorts joint next

/-- What holds of two memories side by side: the storages are the same, and everything behind
registers is paired. -/
structure Coupled (jointLayout splitLayout : Layout) (jointModule splitModule : Module)
    (descriptor : Descriptor) (joint split : Simulator) : Prop where
  jointState : joint.Simulates jointModule
  splitState : split.Simulates splitModule
  arrays : joint.arrays.get? jointLayout.storage.name = split.arrays.get? splitLayout.storage.name
  behind : ∀ (place : Place jointLayout splitLayout), ∀ stage < descriptor.accessStages,
    Paired place (stage + 1) joint split

theorem Layout.Describes.storage_elaborated {layout : Layout} {module : Module}
    {descriptor : Descriptor} (describes : layout.Describes module descriptor) :
    (Simulator.elaborated module).arrays.get? layout.storage.name =
      some (.x descriptor.dataWidth descriptor.depth) := by
  rw [← describes.realizes.width, ← describes.realizes.depth]
  apply Simulator.Simulates.array_elaborated describes.distinct
  rw [describes.declarations, layout.declarations_items]
  exact List.mem_cons_self

private theorem request?_congr {wanted other : Prop} [Decidable wanted] [Decidable other]
    (same : wanted ↔ other) (address data : Bits) :
    request? wanted address data = request? other address data := by
  simp only [request?, same]

namespace Twins

variable {jointLayout splitLayout : Layout} {jointModule splitModule : Module}
  {descriptor : Descriptor} {joint split : Simulator}
  (twins : Twins jointLayout splitLayout jointModule splitModule descriptor)

include twins

section Run

variable (coupled : Coupled jointLayout splitLayout jointModule splitModule descriptor joint split)
  (mirrors : Mirrors descriptor.readWritePorts joint split) (place : Place jointLayout splitLayout)

private theorem outputs_of_place :
    jointModule.outputs[descriptor.readPorts + place.index]? =
        some (.output descriptor.dataWidth (signalName .readWrite place.index "rdata")) ∧
      splitModule.outputs[place.index]? =
        some (.output descriptor.dataWidth (signalName .read place.index "data")) := by
  have inside := twins.index_lt place
  have count : descriptor.separated.readPorts = descriptor.readWritePorts := rfl
  constructor
  · rw [Module.outputs, twins.jointPorts, Descriptor.outputs_eq, twins.reads]
    simp [inside]
  · rw [Module.outputs, twins.splitPorts, Descriptor.outputs_eq, count,
      List.getElem?_append_left (by simpa using inside), List.getElem?_map,
      List.getElem?_range inside]
    rfl

include coupled

private theorem ticks :
    (joint.perform .tick).1 = .ok () ∧ (split.perform .tick).1 = .ok () :=
  ⟨twins.joint.perform_rising coupled.jointState (.inl rfl),
    twins.split.perform_rising coupled.splitState (.inl rfl)⟩

private theorem words {address : Nat} (inside : address < descriptor.depth) :
    ∃ word, joint.memory jointLayout.storage.name address = .ok word ∧
      split.memory splitLayout.storage.name address = .ok word := by
  obtain ⟨array, stored, -, deep, -⟩ := twins.joint.storage coupled.jointState
  have bound : address < array.words.size := by
    rw [twins.joint.realizes.depth] at deep
    exact Nat.lt_of_lt_of_eq inside deep.symm
  have splitStored := coupled.arrays ▸ stored
  exact ⟨array.words[address], by simp [Simulator.memory, stored, bound],
    by simp [Simulator.memory, splitStored, bound]⟩

theorem coupled_redriven {nextJoint nextSplit : Simulator}
    (jointDriven : joint.Redriven nextJoint) (splitDriven : split.Redriven nextSplit) :
    Coupled jointLayout splitLayout jointModule splitModule descriptor nextJoint nextSplit where
  jointState := coupled.jointState.trans jointDriven.alike
  splitState := coupled.splitState.trans splitDriven.alike
  arrays := by rw [jointDriven.arrays, splitDriven.arrays, coupled.arrays]
  behind place stage inside := twins.paired_redriven coupled.jointState coupled.splitState
    place jointDriven splitDriven inside (coupled.behind place stage inside)

include mirrors

private theorem paired {stage : Nat} (inside : stage ≤ descriptor.accessStages) :
    Paired place stage joint split := by
  -- Behind no register stand the inputs themselves, of which the invariant says nothing.
  cases stage with
  | zero => exact twins.paired_of_mirrors coupled.jointState place mirrors
  | succ stage => exact coupled.behind place stage inside

private theorem lanes_agree :
    (split.reading place.reader.enable.output = .ofNat 1 1 ↔
      joint.reading place.plan.enable.output = .ofNat 1 1 ∧
        joint.reading place.plan.mode.output = .ofNat 1 0) ∧
    (split.reading place.writer.enable.output = .ofNat 1 1 ↔
      joint.reading place.plan.enable.output = .ofNat 1 1 ∧
        joint.reading place.plan.mode.output = .ofNat 1 1) ∧
    split.reading place.reader.address.output = joint.reading place.plan.address.output ∧
    split.reading place.writer.address.output = joint.reading place.plan.address.output ∧
    split.reading place.writer.mask.output = joint.reading place.plan.mask.output ∧
    split.reading place.writer.data.output = joint.reading place.plan.data.output := by
  obtain ⟨plans, readers, writers⟩ := twins.staged place
  have plan := plans.tap_eq_output
  have reader := readers.tap_eq_output
  have writer := writers.tap_eq_output
  simp only [ReadWritePlan.lanes, List.forall_mem_cons] at plan
  simp only [ReadPlan.lanes, List.forall_mem_cons] at reader
  simp only [WritePlan.lanes, List.forall_mem_cons] at writer
  obtain ⟨readEnable, writeEnable, readAddress, writeAddress, mask, data⟩ :=
    twins.paired coupled mirrors place (Nat.le_refl _)
  simp only [plan, reader, writer] at readEnable writeEnable readAddress writeAddress mask data
  obtain ⟨enable, -, mode, -, -⟩ := twins.joint.holds_readWrite coupled.jointState place.plan_mem
  obtain ⟨-, enableSize, modeSize, -, -⟩ := twins.joint.widths_readWrite place.plan_mem
  have enableSingle := enable.width.trans enableSize
  have modeSingle := mode.width.trans modeSize
  refine ⟨?_, ?_, readAddress, writeAddress, mask, data⟩
  · obtain ⟨bits, found, -, one⟩ := Bits.and?_of_width_eq_one enableSingle
      (Bits.width_eqArith (joint.reading place.plan.mode.output) (.ofNat 1 0))
    rw [Bits.eqArith_zero_iff modeSingle] at one
    rwa [← Option.some.inj (readEnable.symm.trans found)] at one
  · obtain ⟨bits, found, -, one⟩ := Bits.and?_of_width_eq_one enableSingle modeSingle
    rwa [← Option.some.inj (writeEnable.symm.trans found)] at one

private theorem requests_eq :
    jointLayout.readWrite.map (fun plan => plan.request? joint) =
      splitLayout.write.map fun plan => plan.request? split := by
  obtain ⟨plans, -, writers⟩ := twins.lengths
  apply List.ext_getElem?
  intro index
  by_cases inside : index < descriptor.readWritePorts
  · obtain ⟨place, rfl⟩ := twins.exists_place inside
    obtain ⟨-, enable, -, address, mask, data⟩ := twins.lanes_agree coupled mirrors place
    rw [List.getElem?_map, List.getElem?_map, place.planFound, place.writerFound, Option.map_some,
      Option.map_some]
    congr 1
    rw [ReadWritePlan.request?, WritePlan.request?, address, mask, data]
    apply request?_congr
    rw [enable]
    constructor
    · rintro ⟨enabled, masked, mode⟩
      exact ⟨⟨enabled, mode⟩, masked⟩
    · rintro ⟨⟨enabled, mode⟩, masked⟩
      exact ⟨enabled, masked, mode⟩
  · rw [List.getElem?_eq_none (by simpa [plans] using inside),
      List.getElem?_eq_none (by simpa [writers] using inside)]

private theorem arrays_tick :
    joint.tick.2.arrays.get? jointLayout.storage.name =
      split.tick.2.arrays.get? splitLayout.storage.name := by
  obtain ⟨array, stored, -⟩ := twins.joint.storage coupled.jointState
  obtain ⟨jointDone, splitDone⟩ := twins.ticks coupled
  have jointAfter := twins.joint.arrays_perform coupled.jointState rfl jointDone stored
  have splitAfter := twins.split.arrays_perform coupled.splitState rfl splitDone
    (coupled.arrays ▸ stored)
  have requests := congrArg (List.filterMap id) (twins.requests_eq coupled mirrors)
  rw [List.filterMap_map, List.filterMap_map] at requests
  simp only [Operation.isEdgeOf, List.filter_true, twins.write_joint, twins.readWrite_split,
    List.filterMap_nil, List.append_nil, List.nil_append] at jointAfter splitAfter
  rw [Function.id_comp, Function.id_comp] at requests
  rw [requests] at jointAfter
  exact jointAfter.trans splitAfter.symm

theorem coupled_tick :
    Coupled jointLayout splitLayout jointModule splitModule descriptor joint.tick.2
      split.tick.2 where
  jointState := coupled.jointState.trans (Simulator.alike_perform joint .tick)
  splitState := coupled.splitState.trans (Simulator.alike_perform split .tick)
  arrays := twins.arrays_tick coupled mirrors
  behind place _ inside := twins.paired_tick coupled.jointState coupled.splitState place inside
    (twins.paired coupled mirrors place (Nat.le_of_lt inside))

private theorem outputs :
    ∃ shown, joint.get (signalName .readWrite place.index "rdata") = .ok shown ∧
      split.get (signalName .read place.index "data") = .ok shown := by
  obtain ⟨array, stored, -⟩ := twins.joint.storage coupled.jointState
  obtain ⟨jointNamed, splitNamed⟩ := twins.outputs_of_place place
  obtain ⟨jointOutput, jointFound, jointDriven, jointFits⟩ :=
    twins.joint.exists_output (twins.joint.value_of_readWrite place.planFound)
  obtain ⟨splitOutput, splitFound, splitDriven, splitFits⟩ :=
    twins.split.exists_output (Layout.Describes.value_of_read place.readerFound)
  obtain rfl := Option.some.inj (jointFound.symm.trans jointNamed)
  obtain rfl := Option.some.inj (splitFound.symm.trans splitNamed)
  have jointShown := (twins.joint.get_readWrite coupled.jointState place.plan_mem jointDriven
    jointFits stored).1
  have splitShown := twins.split.get_read coupled.splitState place.reader_mem splitDriven splitFits
    (coupled.arrays ▸ stored)
  obtain ⟨enable, -, address, -⟩ := twins.lanes_agree coupled mirrors place
  simp only [enable, address] at splitShown
  exact ⟨_, jointShown, splitShown⟩

end Run

theorem coupled_start :
    Coupled jointLayout splitLayout jointModule splitModule descriptor (.elaborated jointModule)
      (.elaborated splitModule) where
  jointState := Simulator.simulates_elaborated jointModule
  splitState := Simulator.simulates_elaborated splitModule
  arrays := twins.joint.storage_elaborated.trans twins.split.storage_elaborated.symm
  behind place _ inside := twins.paired_elaborated place inside

theorem coupled_of_lockstep
    (lockstep : Lockstep descriptor.readWritePorts (.elaborated jointModule)
      (.elaborated splitModule) joint split) :
    Coupled jointLayout splitLayout jointModule splitModule descriptor joint split := by
  induction lockstep with
  | start => exact twins.coupled_start
  | drive before jointDriven splitDriven ih =>
    exact twins.coupled_redriven ih jointDriven splitDriven
  | tick before mirrors ih => exact twins.coupled_tick ih mirrors

theorem agree_of_coupled
    (coupled : Coupled jointLayout splitLayout jointModule splitModule descriptor joint split) :
    Agree descriptor jointLayout.storage.name splitLayout.storage.name joint split where
  words _ inside := twins.words coupled inside
  outputs mirrors index inside := by
    obtain ⟨place, rfl⟩ := twins.exists_place inside
    exact twins.outputs coupled mirrors place
  ticks := twins.ticks coupled
  follows := twins.exists_mirrors coupled.jointState coupled.splitState

end Twins

/-- Every memory with read-write ports only agrees with the memory in which each of them is replaced
by a read port and a write port behind as many registers. -/
theorem readWrites_agree {descriptor : Descriptor} (scope : Scope) (name : String)
    (options : LoweringOptions) (reads : descriptor.readPorts = 0)
    (writes : descriptor.writePorts = 0) (wide : 0 < descriptor.dataWidth)
    (deep : 0 < descriptor.depth) (readBound : descriptor.readLatency ≤ maxLatency)
    (writeBound : descriptor.writeLatency ≤ maxLatency)
    (delayed : 0 < max descriptor.readLatency descriptor.writeLatency) :
    ∃ jointModule splitModule,
      lower scope name descriptor.ports descriptor options = .ok jointModule ∧
      lower scope name descriptor.separated.ports descriptor.separated options = .ok splitModule ∧
      ∃ jointStart jointInterface jointStorage splitStart splitInterface splitStorage,
        Started jointModule descriptor.ports descriptor jointStart jointInterface jointStorage ∧
        Started splitModule descriptor.separated.ports descriptor.separated splitStart
          splitInterface splitStorage ∧
        ∀ joint split, Lockstep descriptor.readWritePorts jointStart splitStart joint split →
          Agree descriptor jointStorage splitStorage joint split := by
  have jointValid : descriptor.validate = .ok () := Descriptor.validate_eq_ok_iff.mpr
    ⟨wide, deep, readBound, writeBound, fun some => absurd some (by simp [writes]),
      fun _ => delayed⟩
  have stages : descriptor.accessStages + 1 ≤ maxLatency := by
    rw [Descriptor.accessStages]
    omega
  have splitValid : descriptor.separated.validate = .ok () := Descriptor.validate_eq_ok_iff.mpr
    ⟨wide, deep, Nat.le_of_succ_le stages, stages, fun _ => Nat.succ_pos _,
      fun some => absurd some (Nat.lt_irrefl 0)⟩
  obtain ⟨jointModule, jointLowered⟩ := descriptor.exists_lower scope name options jointValid
  obtain ⟨splitModule, splitLowered⟩ :=
    descriptor.separated.exists_lower scope name options splitValid
  obtain ⟨jointLayout, joint, jointPorts⟩ :=
    exists_describes_of_lower jointLowered descriptor.nodup_names
  obtain ⟨splitLayout, split, splitPorts⟩ :=
    exists_describes_of_lower splitLowered descriptor.separated.nodup_names
  have twins : Twins jointLayout splitLayout jointModule splitModule descriptor :=
    ⟨joint, split, jointPorts, splitPorts, reads, writes⟩
  refine ⟨jointModule, splitModule, jointLowered, splitLowered, _, _, _, _, _, _,
    joint.started jointPorts, split.started splitPorts, ?_⟩
  intro first second lockstep
  exact twins.agree_of_coupled (twins.coupled_of_lockstep lockstep)

/-- A small memory with two read-write ports, whose inputs all pass one register. -/
def twoReadWrites : Descriptor := ((Descriptor.ofSize 8 5).withPorts 0 0 2).withLatency 2 1

theorem readWrites_agree_of_twoReadWrites :
    ∃ jointModule splitModule,
      lower .top "memory" twoReadWrites.ports twoReadWrites .standard = .ok jointModule ∧
      lower .top "memory" twoReadWrites.separated.ports twoReadWrites.separated .standard =
        .ok splitModule ∧
      ∃ jointStart jointInterface jointStorage splitStart splitInterface splitStorage,
        Started jointModule twoReadWrites.ports twoReadWrites jointStart jointInterface
          jointStorage ∧
        Started splitModule twoReadWrites.separated.ports twoReadWrites.separated splitStart
          splitInterface splitStorage ∧
        ∀ joint split, Lockstep twoReadWrites.readWritePorts jointStart splitStart joint split →
          Agree twoReadWrites jointStorage splitStorage joint split :=
  readWrites_agree .top "memory" .standard rfl rfl (by decide) (by decide) (by decide) (by decide)
    (by decide)

end Multiport.Memory
