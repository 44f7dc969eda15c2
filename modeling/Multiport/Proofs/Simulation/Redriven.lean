import Multiport.Proofs.Logic.Single
import Multiport.Proofs.Simulation.Run

namespace Multiport.Simulator

/-- Nothing but the values of inputs differs between two states. -/
structure Redriven (before after : Simulator) : Prop where
  rest : ∃ inputs, after = { before with inputs := inputs }
  widths : ∀ name,
    (after.inputs.get? name).map Bits.width = (before.inputs.get? name).map Bits.width

theorem redriven_adjust (sim : Simulator) (name : String) {change : Bits → Bits}
    (kept : ∀ bits, (change bits).width = bits.width) :
    sim.Redriven { sim with inputs := sim.inputs.adjust name change } where
  rest := ⟨_, rfl⟩
  widths other := by
    rw [Table.get?_adjust]
    split
    · cases sim.inputs.get? other <;> simp [kept]
    · rfl

theorem redriven_set {sim next : Simulator} {name : String} {value : Nat}
    (done : sim.set name value = .ok next) : sim.Redriven next := by
  unfold set setInput at done
  split at done
  · cases done
    exact sim.redriven_adjust name fun held => Bits.width_ofNat held.width value
  · split at done <;> cases done

theorem redriven_setX {sim next : Simulator} {name : String}
    (done : sim.setX name = .ok next) : sim.Redriven next := by
  unfold setX setInput at done
  split at done
  · cases done
    exact sim.redriven_adjust name fun held => Bits.width_x held.width
  · split at done <;> cases done

namespace Redriven

variable {before after : Simulator}

theorem registers (driven : before.Redriven after) : after.registers = before.registers := by
  obtain ⟨inputs, rfl⟩ := driven.rest
  rfl

theorem arrays (driven : before.Redriven after) : after.arrays = before.arrays := by
  obtain ⟨inputs, rfl⟩ := driven.rest
  rfl

theorem alike (driven : before.Redriven after) : before.Alike after := by
  have widths := driven.widths
  obtain ⟨inputs, rfl⟩ := driven.rest
  exact { Alike.refl before with inputs := widths }

theorem trans {first middle last : Simulator} (earlier : first.Redriven middle)
    (later : middle.Redriven last) : first.Redriven last where
  rest := by
    obtain ⟨_, rfl⟩ := earlier.rest
    obtain ⟨inputs, rfl⟩ := later.rest
    exact ⟨inputs, rfl⟩
  widths name := (later.widths name).trans (earlier.widths name)

end Redriven

/-- Different inputs can be given any values of their widths, and the others kept. -/
theorem exists_redriven (sim : Simulator) (values : List (String × Bits))
    (distinct : (values.map Prod.fst).Nodup)
    (fits : ∀ entry ∈ values, (sim.inputs.get? entry.1).map Bits.width = some entry.2.width) :
    ∃ next, sim.Redriven next ∧ (∀ entry ∈ values, next.inputs.get? entry.1 = some entry.2) ∧
      ∀ name ∉ values.map Prod.fst, next.inputs.get? name = sim.inputs.get? name := by
  induction values generalizing sim with
  | nil => exact ⟨sim, ⟨⟨sim.inputs, rfl⟩, fun _ => rfl⟩, by simp, fun _ _ => rfl⟩
  | cons first rest ih =>
    obtain ⟨name, bits⟩ := first
    obtain ⟨absent, others⟩ := List.nodup_cons.mp distinct
    have driven := sim.redriven_adjust name fun _ => bits.width_resize _
    let middle := { sim with inputs := sim.inputs.adjust name fun held => bits.resize held.width }
    have given : middle.inputs.get? name = some bits := by
      obtain ⟨held, found, wide⟩ := Option.map_eq_some_iff.mp (fits _ List.mem_cons_self)
      simp [middle, Table.get?_adjust, found, Bits.resize_of_width_eq wide.symm]
    obtain ⟨next, restDriven, restGiven, kept⟩ := ih middle others fun entry inRest =>
      (driven.widths entry.1).trans (fits entry (List.mem_cons_of_mem _ inRest))
    refine ⟨next, driven.trans restDriven, ?_, ?_⟩
    · intro entry member
      rcases List.mem_cons.mp member with rfl | inRest
      · exact (kept name absent).trans given
      · exact restGiven entry inRest
    · intro other notGiven
      rw [List.map_cons, List.mem_cons, not_or] at notGiven
      rw [kept other notGiven.2, Table.get?_adjust, if_neg notGiven.1]

end Multiport.Simulator
