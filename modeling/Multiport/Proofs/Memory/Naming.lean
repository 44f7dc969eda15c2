import Multiport.Proofs.Memory.Signature

namespace Multiport

/-- Wanted names that are apart from each other and from the used ones are free. -/
theorem freshNames_of_nodup {used wanted : List String} (distinct : (used ++ wanted).Nodup) :
    freshNames used wanted = wanted := by
  induction wanted generalizing used with
  | nil => rfl
  | cons name rest ih =>
    have further : (name :: (used ++ rest)).Nodup := List.perm_middle.nodup_iff.mp distinct
    have free : name ∉ used := fun member =>
      (List.nodup_cons.mp further).1 (List.mem_append_left _ member)
    simp only [freshNames, freshName_of_not_mem free]
    rw [ih further]

namespace Memory

theorem qualify_port (kind : PortKind) (index : Nat) (name : String) :
    (Scope.top.enter (kind.portName index)).qualify name = kind.signalName index name := by
  simp [Scope.qualify, Scope.enter, Scope.top, Scope.label?, Text.joinPresent,
    PortKind.signalName, String.append_assoc]

theorem qualify_input (kind : PortKind) (index : Nat) (input name : String) :
    ((Scope.top.enter (kind.portName index)).enter input).qualify name =
      kind.signalName index (input ++ "_" ++ name) := by
  simp [Scope.qualify, Scope.enter, Scope.top, Scope.label?, Text.joinPresent,
    PortKind.signalName, String.append_assoc]

/-- The field for an input behind one edge more than the number of a stage. -/
def stageField (input : String) (stage : Nat) : String := input ++ "_d" ++ toString stage

private theorem toList_stageField (input : String) (stage : Nat) :
    (stageField input stage).toList = input.toList ++ '_' :: 'd' :: (toString stage).toList := by
  simp [stageField]

section

variable {input other : String}

private theorem ne_underscore (plain : '_' ∉ input.toList) :
    ∀ char ∈ input.toList, (char != '_') = true :=
  fun _ member => bne_iff_ne.mpr fun same => plain (same ▸ member)

private theorem takeWhile_stageField (plain : '_' ∉ input.toList) (stage : Nat) :
    (stageField input stage).toList.takeWhile (· != '_') = input.toList := by
  rw [toList_stageField, List.takeWhile_append_of_pos (ne_underscore plain)]
  simp

private theorem dropWhile_stageField (plain : '_' ∉ input.toList) (stage : Nat) :
    (stageField input stage).toList.dropWhile (· != '_') =
      '_' :: 'd' :: (toString stage).toList := by
  rw [toList_stageField, List.dropWhile_append_of_pos (ne_underscore plain)]
  simp

private theorem stageField_inj (plain : '_' ∉ input.toList) (otherPlain : '_' ∉ other.toList)
    {stage later : Nat} (same : stageField input stage = stageField other later) :
    input = other ∧ stage = later := by
  have inputs := congrArg (fun field => field.toList.takeWhile (· != '_')) same
  have stages := congrArg (fun field => field.toList.dropWhile (· != '_')) same
  simp only [takeWhile_stageField plain, takeWhile_stageField otherPlain] at inputs
  simp only [dropWhile_stageField plain, dropWhile_stageField otherPlain, List.cons.injEq,
    true_and] at stages
  exact ⟨String.toList_inj.mp inputs, toString_nat_injective (String.toList_inj.mp stages)⟩

end

namespace PortKind

def stagedFields (kind : PortKind) (stages : Nat) : List String :=
  (kind.inputs.drop 1).flatMap fun input => (List.range stages).map (stageField input.name)

def logicFields : PortKind → List String
  | readWrite => ["wcond", "rcond", "rdata_hold"]
  | read | write => []

/-- The fields of a port that do not depend on how many stages there are. -/
def fixedFields (kind : PortKind) : List String :=
  kind.inputs.map PortInput.name ++ kind.outputName?.toList ++ kind.logicFields

private theorem plain_inputs {kind : PortKind} {input : PortInput} (member : input ∈ kind.inputs) :
    '_' ∉ input.name.toList := by
  revert input
  cases kind <;> decide

private theorem nodup_stagedFields (kind : PortKind) (stages : Nat) :
    (kind.stagedFields stages).Nodup := by
  have delayed {input : PortInput} (member : input ∈ kind.inputs.drop 1) :
      '_' ∉ input.name.toList := plain_inputs (List.mem_of_mem_drop member)
  refine List.nodup_flatMap.mpr ⟨fun input member => ?_, ?_⟩
  · exact List.nodup_range.map fun stage later same =>
      (stageField_inj (delayed member) (delayed member) same).2
  · have names : (kind.inputs.drop 1).Pairwise fun first second => first.name ≠ second.name := by
      cases kind <;> decide
    refine List.Pairwise.imp_of_mem ?_ names
    intro first second inFirst inSecond apart field ofFirst ofSecond
    obtain ⟨stage, -, rfl⟩ := List.mem_map.mp ofFirst
    obtain ⟨later, -, same⟩ := List.mem_map.mp ofSecond
    exact apart (stageField_inj (delayed inSecond) (delayed inFirst) same).1.symm

private theorem not_mem_stagedFields {kind : PortKind} {field : String}
    (fixed : field ∈ kind.fixedFields) (stages : Nat) : field ∉ kind.stagedFields stages := by
  intro staged
  obtain ⟨input, member, staged⟩ := List.mem_flatMap.mp staged
  obtain ⟨stage, -, rfl⟩ := List.mem_map.mp staged
  have rest := dropWhile_stageField (plain_inputs (List.mem_of_mem_drop member)) stage
  have other : ∀ kind : PortKind, ∀ field ∈ kind.fixedFields,
      ((field.toList.dropWhile (· != '_')).drop 1).head? ≠ some 'd' := by
    intro kind
    cases kind <;> decide
  exact other kind _ fixed (by rw [rest]; rfl)

theorem nodup_fields (kind : PortKind) (stages : Nat) :
    (kind.fixedFields ++ kind.stagedFields stages).Nodup := by
  refine List.nodup_append.mpr ⟨?_, nodup_stagedFields kind stages, ?_⟩
  · cases kind <;> decide
  · rintro field fixed other staged rfl
    exact not_mem_stagedFields fixed stages staged

theorem signalName_ne_storageName (kind : PortKind) (index : Nat) (field : String) :
    kind.signalName index field ≠ LoweringOptions.standard.storageName := by
  intro same
  have first := congrArg (fun name => name.toList.head?) same
  cases kind <;> simp [signalName, portName, letters, LoweringOptions.standard] at first

end PortKind

namespace Descriptor

variable (descriptor : Descriptor)

/-- How many edges delay the inputs of a port of a kind. -/
def stages : PortKind → Nat
  | .read => descriptor.readLatency
  | .write => descriptor.writeLatency - 1
  | .readWrite => max descriptor.readLatency descriptor.writeLatency - 1

/-- The registers behind the inputs of a port are named by fields of the port. -/
theorem stagedNames_eq (kind : PortKind) (index stages : Nat) :
    stagedNames kind (Scope.top.enter (kind.portName index)) stages =
      (kind.stagedFields stages).map (kind.signalName index) := by
  simp only [stagedNames, laneNames, PortKind.stagedFields, List.map_flatMap, List.map_map,
    qualify_input, Function.comp_def, stageField, String.append_assoc]
  rfl

/-- The names of some fields of each port, by the kind of the port. -/
def fieldNames (fields : PortKind → List String) : List String :=
  descriptor.eachPort fun kind index => (fields kind).map (kind.signalName index)

theorem loweringNames_eq :
    loweringNames .top descriptor .standard =
      LoweringOptions.standard.storageName :: descriptor.fieldNames fun kind =>
        kind.stagedFields (descriptor.stages kind) ++ kind.logicFields := by
  simp only [loweringNames, Scope.qualify_top, kindNames, ← List.range_eq_range', readWriteNames,
    stagedNames_eq, descriptor.getD_readWriteStages?, descriptor.getD_writeStages?, fieldNames,
    eachPort, kindOrder, List.flatMap_cons, List.flatMap_nil, List.append_nil, List.map_append,
    PortKind.logicFields, List.map_nil, List.map_cons, qualify_port, List.append_assoc]
  rfl

private theorem fieldNames_append_perm (first second : PortKind → List String) :
    (descriptor.fieldNames first ++ descriptor.fieldNames second).Perm
      (descriptor.fieldNames fun kind => first kind ++ second kind) := by
  simp only [fieldNames, eachPort, List.map_append]
  refine (List.flatMap_append_perm kindOrder _ _).trans (List.Perm.flatMap_left kindOrder ?_)
  exact fun kind _ => List.flatMap_append_perm _ _ _

private theorem fieldNames_perm {first second : PortKind → List String}
    (same : ∀ kind, (first kind).Perm (second kind)) :
    (descriptor.fieldNames first).Perm (descriptor.fieldNames second) := by
  unfold fieldNames eachPort
  exact List.Perm.flatMap_left kindOrder fun kind _ =>
    List.Perm.flatMap_left _ fun index _ => (same kind).map (kind.signalName index)

private theorem storageName_not_mem_fieldNames (fields : PortKind → List String) :
    LoweringOptions.standard.storageName ∉ descriptor.fieldNames fields := by
  intro member
  obtain ⟨kind, -, member⟩ := List.mem_flatMap.mp member
  obtain ⟨index, -, member⟩ := List.mem_flatMap.mp member
  obtain ⟨field, -, same⟩ := List.mem_map.mp member
  exact kind.signalName_ne_storageName index field same

/-- With the ports of the descriptor, every name that lowering wants is free. -/
theorem freshNames_loweringNames :
    freshNames (descriptor.ports.map Port.name) (loweringNames .top descriptor .standard) =
      loweringNames .top descriptor .standard := by
  have fields : ∀ kind : PortKind, List.Perm
      (kind.inputs.map PortInput.name ++ kind.outputName?.toList ++
        (kind.stagedFields (descriptor.stages kind) ++ kind.logicFields))
      (kind.fixedFields ++ kind.stagedFields (descriptor.stages kind)) := fun kind => by
    rw [PortKind.fixedFields, List.append_assoc _ kind.logicFields]
    exact List.perm_append_comm.append_left _
  have gathered := (((descriptor.fieldNames_append_perm _ _).append_right _).trans
    (descriptor.fieldNames_append_perm _ _)).trans (descriptor.fieldNames_perm fields)
  have distinct := gathered.nodup_iff.mpr
    (descriptor.nodup_eachPort fun kind => kind.nodup_fields (descriptor.stages kind))
  apply freshNames_of_nodup
  rw [map_name_ports, loweringNames_eq]
  refine List.perm_middle.nodup_iff.mpr (List.nodup_cons.mpr ⟨fun member => ?_, distinct⟩)
  exact descriptor.storageName_not_mem_fieldNames _ (gathered.subset member)

end Descriptor
end Memory
end Multiport
