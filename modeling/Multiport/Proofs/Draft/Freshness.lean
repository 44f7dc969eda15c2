import Multiport.Proofs.Draft.Building

/-! Fresh names over a whole history of calls. A wanted name that is taken gets the smallest number
that makes it free, also where somebody asked for a numbered name literally before, or where names
of different scopes coincide: all that counts is which names are taken at the time. Trying one
number after another ends, because there are only so many taken names. -/
namespace Multiport

open Item (declaredNames)

/-- One number after another is tried, from a first one on, until one makes the name free. -/
inductive Tries (used : List String) (name : String) : Nat → Nat → Prop where
  | free {number : Nat} (unused : suffixed name number ∉ used) : Tries used name number number
  | taken {number found : Nat} (inUse : suffixed name number ∈ used)
      (next : Tries used name (number + 1) found) : Tries used name number found

/-- What a wanted name becomes beside names in use. -/
inductive FreshFor (used : List String) (wanted : String) : String → Prop where
  | unchanged (unused : wanted ∉ used) : FreshFor used wanted wanted
  | numbered {number : Nat} (inUse : wanted ∈ used) (positive : 1 ≤ number)
      (unused : suffixed wanted number ∉ used)
      (least : ∀ smaller, 1 ≤ smaller → smaller < number → suffixed wanted smaller ∈ used) :
      FreshFor used wanted (suffixed wanted number)

variable {used : List String} {name : String}

/-- Trying ends with a number if no smaller one makes the name free. -/
theorem Tries.of_least {first found : Nat} (after : first ≤ found)
    (unused : suffixed name found ∉ used)
    (least : ∀ number, first ≤ number → number < found → suffixed name number ∈ used) :
    Tries used name first found := by
  obtain ⟨distance, reach⟩ := Nat.le.dest after
  induction distance generalizing first with
  | zero =>
    obtain rfl : first = found := reach
    exact .free unused
  | succ distance ih =>
    have inUse : suffixed name first ∈ used := least first (Nat.le_refl first) (by omega)
    have later : ∀ number, first + 1 ≤ number → number < found → suffixed name number ∈ used :=
      fun number above => least number (by omega)
    exact .taken inUse (ih (by omega) later (by omega))

/-- What trying ends with makes the name free, and no smaller number does. -/
theorem Tries.least {first found : Nat} (tries : Tries used name first found) :
    first ≤ found ∧ suffixed name found ∉ used ∧
      ∀ number, first ≤ number → number < found → suffixed name number ∈ used := by
  induction tries with
  | free unused => exact ⟨Nat.le_refl _, unused, fun number above below => by omega⟩
  | @taken first found inUse next ih =>
    obtain ⟨after, unused, smaller⟩ := ih
    refine ⟨by omega, unused, fun number above below => ?_⟩
    rcases Nat.eq_or_lt_of_le above with rfl | later
    · exact inUse
    · exact smaller number later below

/-- Among one number more than there are names in use, trying finds the one it ends with. -/
theorem exists_tries (used : List String) (name : String) :
    ∃ number, freeNumber? used name (used.length + 1) = some number ∧
      number ≤ used.length + 1 ∧ Tries used name 1 number := by
  obtain ⟨number, found⟩ := Option.isSome_iff_exists.mp (freeNumber?_isSome used name)
  obtain ⟨unused, inRange, smaller⟩ := List.find?_range'_eq_some.mp found
  obtain ⟨positive, bound⟩ := List.mem_range'_1.mp inRange
  refine ⟨number, found, by omega, .of_least positive (by simpa using unused) ?_⟩
  exact fun other above below => by simpa using smaller other above below

/-- The name that is taken for a wanted one is what the wanted one becomes. -/
theorem freshFor_freshName (used : List String) (wanted : String) :
    FreshFor used wanted (freshName used wanted) := by
  by_cases inUse : wanted ∈ used
  · obtain ⟨number, found, -, tries⟩ := exists_tries used wanted
    obtain ⟨positive, unused, least⟩ := tries.least
    have same : freshName used wanted = suffixed wanted number := by
      simp [freshName, inUse, found]
    exact same ▸ .numbered inUse positive unused least
  · exact (freshName_of_not_mem inUse).symm ▸ .unchanged inUse

theorem FreshFor.congr {other : List String} {wanted fresh : String}
    (same : ∀ name, name ∈ used ↔ name ∈ other) (chosen : FreshFor used wanted fresh) :
    FreshFor other wanted fresh := by
  cases chosen with
  | unchanged unused => exact .unchanged fun inOther => unused ((same _).mpr inOther)
  | numbered inUse positive unused least =>
    exact .numbered ((same _).mp inUse) positive (fun inOther => unused ((same _).mpr inOther))
      fun smaller above below => (same _).mp (least smaller above below)

namespace ModuleDraft

/-- Whatever calls build a module, the names that it declares are distinct and none is that of a
port. A declaration is answered with the name that it declares: the wanted one if this is no port's
and not declared yet, and otherwise the one with the smallest number for which this holds. The
search for the number ends, whatever names are in use. -/
theorem declared_names_fresh (name : String) (ports : List Port) {calls : List DraftCall}
    {replies : List DraftReply} {draft : ModuleDraft}
    (built : (start name ports).run calls = .ok (replies, draft)) :
    (declaredNames draft.items).Nodup ∧
    (∀ declared ∈ declaredNames draft.items, declared ∉ ports.map Port.name) ∧
    (∀ module, draft.finish = .ok module →
      module.ports = ports ∧
        module.declarations.map Declaration.name = declaredNames draft.items) ∧
    (∀ scope wanted new, ∃ fresh next,
      draft.perform (.declare scope wanted new) = .ok (.declared (new.handle fresh), next) ∧
      next.items = draft.items ++ new.items fresh ∧
      FreshFor (ports.map Port.name ++ declaredNames draft.items) (scope.qualify wanted) fresh) ∧
    ∀ used wanted, ∃ number, number ≤ used.length + 1 ∧ Tries used wanted 1 number := by
  have accounts := (accounts_start name ports).run built
  refine ⟨accounts.distinct, accounts.apart, ?_, ?_, ?_⟩
  · intro module finished
    obtain ⟨-, samePorts, items⟩ := of_finish finished
    exact ⟨samePorts.trans accounts.given, congrArg declaredNames items⟩
  · intro scope wanted new
    obtain ⟨fresh, next, declared, chosen, extended⟩ := draft.extends_declare scope wanted new
    refine ⟨fresh, next, by simp only [perform, declared], extended.items, ?_⟩
    have inDraft := freshFor_freshName draft.names (scope.qualify wanted)
    rw [← chosen] at inDraft
    exact inDraft.congr fun _ => accounts.mem_names
  · intro used wanted
    obtain ⟨number, -, bound, tries⟩ := exists_tries used wanted
    exact ⟨number, bound, tries⟩

/-- Calls that ask for a taken name twice, for a numbered name literally, and for the same name
from two scopes. -/
def crowdedCalls : List DraftCall :=
  [.declare (Scope.top.enter "R0") "en" (.reg 1), .declare .top "R0_en_2" (.storage 8 4),
    .enterSection "more", .declare (Scope.top.enter "R0") "en_2" (.net (.x 1) 1),
    .declare (Scope.top.enter "R0") "en" (.reg 1), .driveOutputs [.x 1], .leaveSection]

theorem declared_names_fresh_crowded :
    ∃ draft, (start "m" [.input 1 "R0_en"]).run crowdedCalls =
        .ok ([.declared (.signal (.ident "R0_en_1" 1)), .declared (.storage ⟨"R0_en_2", 8, 4⟩),
          .done, .declared (.signal (.ident "R0_en_2_1" 1)),
          .declared (.signal (.ident "R0_en_3" 1)), .refused (.outputCount 0 1), .done], draft) ∧
      (declaredNames draft.items).Nodup ∧ "R0_en" ∉ declaredNames draft.items ∧
      ∃ fresh next, draft.perform (.declare (Scope.top.enter "R0") "en" (.reg 1)) =
          .ok (.declared (.signal (.ident fresh 1)), next) ∧
        FreshFor (["R0_en"] ++ declaredNames draft.items)
          ((Scope.top.enter "R0").qualify "en") fresh := by
  have answers : ((start "m" [.input 1 "R0_en"]).run crowdedCalls).map Prod.fst = .ok
      [.declared (.signal (.ident "R0_en_1" 1)), .declared (.storage ⟨"R0_en_2", 8, 4⟩), .done,
        .declared (.signal (.ident "R0_en_2_1" 1)), .declared (.signal (.ident "R0_en_3" 1)),
        .refused (.outputCount 0 1), .done] := by decide +kernel
  cases built : (start "m" [.input 1 "R0_en"]).run crowdedCalls with
  | error breach =>
    rw [built] at answers
    cases answers
  | ok result =>
    obtain ⟨replies, draft⟩ := result
    rw [built] at answers
    cases answers
    obtain ⟨distinct, apart, -, declares, -⟩ := declared_names_fresh "m" [.input 1 "R0_en"] built
    obtain ⟨fresh, next, declared, -, chosen⟩ :=
      declares (Scope.top.enter "R0") "en" (.reg 1)
    exact ⟨draft, rfl, distinct, fun member => apart _ member List.mem_cons_self, fresh, next,
      declared, chosen⟩

end ModuleDraft
end Multiport
