import Multiport.Proofs.Draft.Placing

/-! Sections of a module, and what stands in them. Calls that build a module contribute items. The
sections say how these are arranged: what is contributed between entering and leaving a section
becomes one group, unless it is nothing. Nothing is lost, repeated or moved by that, however the
sections are nested. -/
namespace Multiport

abbrev DraftTrace := List (DraftCall × DraftReply)

/-- The items that calls contribute, in the order of the calls. -/
def DraftTrace.contributions (ports : List Port) (trace : DraftTrace) : List Item :=
  trace.flatMap fun entry => entry.1.contribution ports entry.2

/-- How items are arranged by calls: one after another, and those of a section as one group at the
place where the section was entered. -/
inductive Arranged (ports : List Port) : DraftTrace → List Item → Prop where
  | nil : Arranged ports [] []
  | call {call : DraftCall} {reply : DraftReply} {trace : DraftTrace} {body : List Item}
      (stays : call.opens = false ∧ call.closes = false) (rest : Arranged ports trace body) :
      Arranged ports ((call, reply) :: trace) (call.contribution ports reply ++ body)
  | inSection {title : String} {inner trace : DraftTrace} {items body : List Item}
      (inside : Arranged ports inner items) (rest : Arranged ports trace body) :
      Arranged ports ((.enterSection title, .done) :: inner ++ (.leaveSection, .done) :: trace)
        (Item.grouped title items ++ body)

namespace Item

mutual

def filled : Item → Bool
  | group _ _ items => !items.isEmpty && filledAll items
  | declarations _ | assigns _ | always _ _ => true

/-- No group in some items, at whatever depth, is empty. -/
def filledAll : List Item → Bool
  | [] => true
  | item :: rest => item.filled && filledAll rest

end

theorem filledAll_append (left right : List Item) :
    filledAll (left ++ right) = (filledAll left && filledAll right) := by
  induction left with
  | nil => rfl
  | cons item rest ih => simp [filledAll, ih, Bool.and_assoc]

theorem flattenAll_grouped (title : String) (items : List Item) :
    flattenAll (Item.grouped title items) = flattenAll items := by
  cases items with
  | nil => rfl
  | cons item rest => simp [Item.grouped, flattenAll]

theorem filledAll_grouped (title : String) (items : List Item) :
    filledAll (Item.grouped title items) = filledAll items := by
  cases items with
  | nil => rfl
  | cons item rest => simp [Item.grouped, filledAll, filled]

end Item

theorem DraftCall.contribution_plain (ports : List Port) (call : DraftCall) (reply : DraftReply) :
    Item.flattenAll (call.contribution ports reply) = call.contribution ports reply ∧
      Item.filledAll (call.contribution ports reply) = true := by
  unfold contribution
  split
  · rename_i new handle
    cases handle.name? with
    | none => exact ⟨rfl, rfl⟩
    | some name => cases new <;> exact ⟨rfl, rfl⟩
  · exact ⟨rfl, rfl⟩
  · exact ⟨rfl, rfl⟩
  · simp only [Item.driving]
    split <;> exact ⟨rfl, rfl⟩
  · exact ⟨rfl, rfl⟩

namespace Arranged

variable {ports : List Port} {trace later : DraftTrace} {body items : List Item}

theorem append (arranged : Arranged ports trace body) (others : Arranged ports later items) :
    Arranged ports (trace ++ later) (body ++ items) := by
  induction arranged with
  | nil => exact others
  | call stays _ ih =>
    rw [List.append_assoc]
    exact .call stays ih
  | inSection inside _ _ ih =>
    rw [List.append_assoc, List.append_assoc]
    exact .inSection inside ih

theorem single {call : DraftCall} (stays : call.opens = false ∧ call.closes = false)
    (reply : DraftReply) : Arranged ports [(call, reply)] (call.contribution ports reply) := by
  rw [← List.append_nil (call.contribution ports reply)]
  exact .call stays .nil

theorem group (title : String) (inside : Arranged ports trace items) :
    Arranged ports ((.enterSection title, .done) :: trace ++ [(.leaveSection, .done)])
      (Item.grouped title items) := by
  rw [← List.append_nil (Item.grouped title items)]
  exact .inSection inside .nil

theorem flattenAll_eq (arranged : Arranged ports trace body) :
    Item.flattenAll body = trace.contributions ports := by
  induction arranged with
  | nil => rfl
  | @call call reply trace body stays rest ih =>
    rw [Item.flattenAll_append, (call.contribution_plain ports reply).1, ih]
    rfl
  | @inSection title inner trace items body inside rest insideIh ih =>
    rw [Item.flattenAll_append, Item.flattenAll_grouped, insideIh, ih]
    simp [DraftTrace.contributions, DraftCall.contribution]

theorem filled (arranged : Arranged ports trace body) : Item.filledAll body = true := by
  induction arranged with
  | nil => rfl
  | @call call reply trace body stays rest ih =>
    rw [Item.filledAll_append, (call.contribution_plain ports reply).2, ih, Bool.and_self]
  | inSection inside rest insideIh ih =>
    rw [Item.filledAll_append, Item.filledAll_grouped, insideIh, ih, Bool.and_self]

end Arranged

namespace ModuleDraft

/-- The answers to calls lead from one draft to another. -/
inductive Answered : ModuleDraft → DraftTrace → ModuleDraft → Prop where
  | nil {draft : ModuleDraft} : Answered draft [] draft
  | cons {draft next last : ModuleDraft} {call : DraftCall} {reply : DraftReply}
      {trace : DraftTrace} (done : draft.perform call = .ok (reply, next))
      (rest : Answered next trace last) : Answered draft ((call, reply) :: trace) last

theorem answered_of_run {draft last : ModuleDraft} {calls : List DraftCall}
    {replies : List DraftReply} (done : draft.run calls = .ok (replies, last)) :
    Answered draft (calls.zip replies) last := by
  induction calls generalizing draft replies with
  | nil =>
    cases done
    exact .nil
  | cons call rest ih =>
    obtain ⟨⟨reply, middle⟩, first, others⟩ := bind_eq_ok_iff.mp done
    obtain ⟨⟨later, final⟩, remaining, same⟩ := bind_eq_ok_iff.mp others
    cases same
    exact .cons first (ih remaining)

theorem answered_append_iff {draft last : ModuleDraft} {first second : DraftTrace} :
    Answered draft (first ++ second) last ↔
      ∃ middle, Answered draft first middle ∧ Answered middle second last := by
  constructor
  · intro answered
    induction first generalizing draft with
    | nil => exact ⟨draft, .nil, answered⟩
    | cons entry rest ih =>
      cases answered with
      | cons done others =>
        obtain ⟨middle, before, after⟩ := ih others
        exact ⟨middle, .cons done before, after⟩
  · rintro ⟨middle, before, after⟩
    induction before with
    | nil => exact after
    | cons done _ ih => exact .cons done (ih after)

theorem items_perform {draft next : ModuleDraft} {call : DraftCall} {reply : DraftReply}
    (done : draft.perform call = .ok (reply, next)) :
    next.items = draft.items ++ call.contribution draft.ports reply := by
  rcases call.stays_or_section with stays | ⟨title, rfl⟩ | rfl
  · obtain ⟨names, rfl⟩ := perform_stays stays done
    have put : ((draft.put (call.contribution draft.ports reply)).withNames names).items =
        (draft.put (call.contribution draft.ports reply)).items := rfl
    rw [put, items_put, (call.contribution_plain draft.ports reply).1]
  · cases done
    simp [items, enterSection, DraftCall.contribution, Item.flattenAll]
  · obtain ⟨after, left, same⟩ := bind_eq_ok_iff.mp done
    cases same
    obtain ⟨inner, outer, opened, -⟩ := leaveSection_eq_ok_iff.mp left
    obtain ⟨after, left', -, -, -, items, -⟩ := leaveSection_eq_ok opened
    cases left'.symm.trans left
    rw [items]
    exact (List.append_nil _).symm

theorem Answered.items {draft last : ModuleDraft} {trace : DraftTrace} {ports : List Port}
    (answered : Answered draft trace last) (accounts : draft.Accounts ports) :
    last.items = draft.items ++ trace.contributions ports := by
  induction answered with
  | nil => exact (List.append_nil _).symm
  | cons done _ ih =>
    rw [ih (accounts.perform done), items_perform done, accounts.given, List.append_assoc]
    rfl

/-- How calls arranged the items of a draft: those at the top, and then those in each open section,
from the outermost one inwards. -/
inductive Stands (ports : List Port) : DraftTrace → Array Item → List OpenSection → Prop where
  | top {trace : DraftTrace} {finished : Array Item}
      (arranged : Arranged ports trace finished.toList) : Stands ports trace finished []
  | inside (opened : OpenSection) {outer inner : DraftTrace} {finished : Array Item}
      {sections : List OpenSection} (outside : Stands ports outer finished sections)
      (arranged : Arranged ports inner opened.items.toList) :
      Stands ports (outer ++ (.enterSection opened.title, .done) :: inner) finished
        (opened :: sections)

namespace Stands

variable {ports : List Port} {taken inner trace : DraftTrace} {draft next last : ModuleDraft}

theorem put (stands : Stands ports taken draft.finished draft.sections) {items : List Item}
    (arranged : Arranged ports inner items) :
    Stands ports (taken ++ inner) (draft.put items).finished (draft.put items).sections := by
  obtain ⟨name, given, finished, sections, names⟩ := draft
  have added : ∀ earlier : Array Item,
      (earlier ++ items.toArray).toList = earlier.toList ++ items := fun earlier => by simp
  cases stands with
  | top before => exact .top ((added _).symm ▸ before.append arranged)
  | inside opened outside before =>
    rw [List.append_assoc, List.cons_append]
    exact .inside ⟨opened.title, opened.items ++ items.toArray⟩ outside
      ((added _).symm ▸ before.append arranged)

theorem perform (given : draft.ports = ports)
    (stands : Stands ports taken draft.finished draft.sections) {call : DraftCall}
    {reply : DraftReply} (done : draft.perform call = .ok (reply, next)) :
    Stands ports (taken ++ [(call, reply)]) next.finished next.sections := by
  rcases call.stays_or_section with stays | ⟨title, rfl⟩ | rfl
  · obtain ⟨names, rfl⟩ := perform_stays stays done
    subst given
    exact stands.put (.single stays reply)
  · cases done
    exact .inside ⟨title, #[]⟩ stands .nil
  · obtain ⟨after, left, same⟩ := bind_eq_ok_iff.mp done
    cases same
    obtain ⟨inner, outer, opened, rfl⟩ := leaveSection_eq_ok_iff.mp left
    rw [opened] at stands
    cases stands with
    | @inside _ before _ _ _ outside arranged =>
      let around : ModuleDraft := { draft with sections := outer }
      have there : Stands ports before around.finished around.sections := outside
      rw [List.append_assoc]
      exact there.put (arranged.group inner.title)

theorem answered (accounts : draft.Accounts ports)
    (stands : Stands ports taken draft.finished draft.sections)
    (answered : Answered draft trace last) :
    Stands ports (taken ++ trace) last.finished last.sections := by
  induction answered generalizing taken with
  | nil => rwa [List.append_nil]
  | cons done _ ih =>
    simpa using ih (accounts.perform done) (stands.perform accounts.given done)

theorem arranged {finished : Array Item} (stands : Stands ports trace finished []) :
    Arranged ports trace finished.toList := by
  cases stands with
  | top arranged => exact arranged

end Stands

/-- Arranged items are put where a draft stands, whatever it holds. -/
theorem exists_names_of_arranged {ports : List Port} {trace : DraftTrace} {body : List Item}
    (arranged : Arranged ports trace body) {draft last : ModuleDraft} (given : draft.ports = ports)
    (answered : Answered draft trace last) :
    ∃ names, last = (draft.put body).withNames names := by
  induction arranged generalizing draft last with
  | nil =>
    cases answered
    exact exists_names_of_eq_put (put_nil _).symm
  | call stays _ ih =>
    cases answered with
    | cons done others =>
      obtain ⟨taken, rfl⟩ := perform_stays stays done
      obtain ⟨names, rfl⟩ := ih (by simpa [withNames] using given) others
      refine ⟨names, ?_⟩
      rw [put_withNames, put_put, given]
      rfl
  | @inSection title inner trace items body inside rest insideIh ih =>
    cases answered with
    | cons done others =>
      cases done
      obtain ⟨middle, within, others⟩ := answered_append_iff.mp others
      have here : (draft.enterSection title).ports = ports := given
      obtain ⟨taken, rfl⟩ := insideIh here within
      cases others with
      | @cons _ next _ _ _ _ done others =>
        have left : next = (draft.put (Item.grouped title items)).withNames taken := by
          obtain ⟨after, left, same⟩ := bind_eq_ok_iff.mp done
          cases same
          obtain ⟨inner, outer, opened, rfl⟩ := leaveSection_eq_ok_iff.mp left
          have here : (((draft.enterSection title).put items).withNames taken).sections =
              ⟨title, #[] ++ items.toArray⟩ :: draft.sections := rfl
          cases here.symm.trans opened
          simp only [Array.empty_append, List.toList_toArray]
          exact put_withNames draft taken _
        subst left
        obtain ⟨names, rfl⟩ := ih (by simpa [withNames] using given) others
        refine ⟨names, ?_⟩
        rw [put_withNames, put_put]
        rfl

/-! ### How deep a draft stands, and which calls break -/

section

variable {draft next : ModuleDraft} {breach : Breach}

/-- A call breaks exactly if it leaves a section where none is open. -/
theorem perform_eq_error_iff {call : DraftCall} :
    draft.perform call = .error breach ↔
      call = .leaveSection ∧ draft.sections = [] ∧ breach = .leaveWithoutSection := by
  cases call with
  | leaveSection =>
    rw [perform, ← leaveSection_eq_error_iff]
    cases draft.leaveSection <;> simp
  | driveOutputs values =>
    simp only [perform]
    split <;> simp
  | _ => simp [perform]

theorem run_append (first second : List DraftCall) :
    draft.run (first ++ second) = do
      let (before, middle) ← draft.run first
      let (after, last) ← middle.run second
      return (before ++ after, last) := by
  induction first generalizing draft with
  | nil =>
    simp only [List.nil_append, run, ok_bind]
    cases draft.run second <;> simp
  | cons call rest ih =>
    simp only [List.cons_append, run, ih]
    cases draft.perform call with
    | error breach => simp
    | ok answered =>
      simp only [ok_bind]
      cases answered.2.run rest with
      | error breach => simp
      | ok others => cases others.2.run second <;> simp

/-- Calls break at the first one that leaves a section where none is open. -/
theorem run_eq_error_iff {calls : List DraftCall} :
    draft.run calls = .error breach ↔ breach = .leaveWithoutSection ∧
      ∃ taken rest replies middle, calls = taken ++ .leaveSection :: rest ∧
        draft.run taken = .ok (replies, middle) ∧ middle.sections = [] := by
  constructor
  · intro broken
    induction calls generalizing draft with
    | nil => cases broken
    | cons call rest ih =>
      rw [run] at broken
      cases done : draft.perform call with
      | error cause =>
        rw [done] at broken
        cases broken
        obtain ⟨rfl, closed, rfl⟩ := perform_eq_error_iff.mp done
        exact ⟨rfl, [], rest, [], draft, rfl, rfl, closed⟩
      | ok answered =>
        obtain ⟨reply, next⟩ := answered
        simp only [done, ok_bind] at broken
        cases remaining : next.run rest with
        | ok others => simp [remaining] at broken
        | error cause =>
          simp only [remaining, error_bind] at broken
          cases broken
          obtain ⟨rfl, taken, later, replies, middle, rfl, first, closed⟩ := ih remaining
          refine ⟨rfl, call :: taken, later, reply :: replies, middle, rfl, ?_, closed⟩
          simp [run, done, first]
  · rintro ⟨rfl, taken, rest, replies, middle, rfl, first, closed⟩
    have breaks := perform_eq_error_iff.mpr ⟨rfl, closed, rfl⟩
    simp [run_append, first, run, breaks]

/-- A call goes one section deeper, or comes out of one, or stays. -/
theorem depth_perform {call : DraftCall} {reply : DraftReply}
    (done : draft.perform call = .ok (reply, next)) :
    next.sections.length + [call].countP DraftCall.closes =
      draft.sections.length + [call].countP DraftCall.opens := by
  rcases call.stays_or_section with stays | ⟨title, rfl⟩ | rfl
  · obtain ⟨names, rfl⟩ := perform_stays stays done
    simp [withNames, stays]
  · cases done
    simp [enterSection, DraftCall.opens, DraftCall.closes]
  · obtain ⟨after, left, same⟩ := bind_eq_ok_iff.mp done
    cases same
    obtain ⟨inner, outer, opened, rfl⟩ := leaveSection_eq_ok_iff.mp left
    simp [opened, DraftCall.opens, DraftCall.closes]

/-- The sections open after calls are those that were opened and not closed again. -/
theorem depth_run {calls : List DraftCall} {replies : List DraftReply}
    (done : draft.run calls = .ok (replies, next)) :
    next.sections.length + calls.countP DraftCall.closes =
      draft.sections.length + calls.countP DraftCall.opens := by
  induction calls generalizing draft replies with
  | nil =>
    cases done
    rfl
  | cons call rest ih =>
    obtain ⟨⟨reply, middle⟩, first, others⟩ := bind_eq_ok_iff.mp done
    obtain ⟨⟨later, last⟩, remaining, same⟩ := bind_eq_ok_iff.mp others
    cases same
    have step := depth_perform first
    have further := ih remaining
    rw [← List.singleton_append, List.countP_append, List.countP_append]
    omega

end

/-! ### The whole building -/

section

variable {name : String} {ports : List Port} {calls : List DraftCall} {replies : List DraftReply}
  {draft : ModuleDraft}

theorem depth_of_start (built : (start name ports).run calls = .ok (replies, draft)) :
    draft.sections.length + calls.countP DraftCall.closes = calls.countP DraftCall.opens := by
  have depth := depth_run built
  rwa [start, List.length_nil, Nat.zero_add] at depth

/-- Building breaks exactly if some call leaves a section when as many were closed as opened. -/
theorem run_start_eq_error_iff {breach : Breach} :
    (start name ports).run calls = .error breach ↔ breach = .leaveWithoutSection ∧
      ∃ taken rest, calls = taken ++ .leaveSection :: rest ∧
        taken.countP DraftCall.opens = taken.countP DraftCall.closes := by
  constructor
  · intro broken
    obtain ⟨rfl, taken, rest, replies, middle, rfl, first, closed⟩ := run_eq_error_iff.mp broken
    have depth := depth_of_start first
    rw [closed, List.length_nil, Nat.zero_add] at depth
    exact ⟨rfl, taken, rest, rfl, depth.symm⟩
  · rintro ⟨rfl, taken, rest, rfl, balanced⟩
    refine run_eq_error_iff.mpr ⟨rfl, ?_⟩
    cases first : (start name ports).run taken with
    | error cause =>
      -- an earlier call breaks already
      obtain ⟨-, before, between, replies, middle, rfl, earlier, closed⟩ :=
        run_eq_error_iff.mp first
      exact ⟨before, between ++ .leaveSection :: rest, replies, middle, by simp, earlier, closed⟩
    | ok answered =>
      obtain ⟨replies, middle⟩ := answered
      have depth := depth_of_start first
      have closed : middle.sections = [] := List.eq_nil_of_length_eq_zero (by omega)
      exact ⟨taken, rest, replies, middle, rfl, first, closed⟩

theorem finish_eq_ok_iff_arranged (built : (start name ports).run calls = .ok (replies, draft))
    {module : Module} :
    draft.finish = .ok module ↔ module.name = name ∧ module.ports = ports ∧
      Arranged ports (calls.zip replies) module.body := by
  have answered := answered_of_run built
  have whole : ∀ body, Arranged ports (calls.zip replies) body →
      draft.finish = .ok ⟨name, ports, body⟩ := fun body arranged => by
    obtain ⟨names, rfl⟩ :=
      exists_names_of_arranged arranged (accounts_start name ports).given answered
    simp [finish, withNames, put, start]
  constructor
  · intro finished
    have stands : Stands ports (calls.zip replies) draft.finished draft.sections :=
      Stands.answered (accounts_start name ports) (.top .nil) answered
    cases opened : draft.sections with
    | cons inner outer =>
      rw [finish, opened] at finished
      cases finished
    | nil =>
      have arranged := Stands.arranged (opened ▸ stands)
      cases (whole _ arranged).symm.trans finished
      exact ⟨rfl, rfl, arranged⟩
  · rintro ⟨rfl, rfl, arranged⟩
    exact whole module.body arranged

end

/-- Sections never lose, repeat or move an item. Building breaks only where a section is left and
none is open, and finishing only if some are. The finished module holds what the calls contributed,
in the order of the calls; each section that received something is one group among what was
contributed beside it, and no group is empty. Values that do not fit the outputs change nothing, and
values that fit drive each output with the value at its place. -/
theorem sections_keep_items (name : String) (ports : List Port) (calls : List DraftCall) :
    (∀ breach, (start name ports).run calls = .error breach ↔ breach = .leaveWithoutSection ∧
      ∃ taken rest, calls = taken ++ .leaveSection :: rest ∧
        taken.countP DraftCall.opens = taken.countP DraftCall.closes) ∧
    ∀ replies draft, (start name ports).run calls = .ok (replies, draft) →
      (∀ breach, draft.finish = .error breach ↔
        calls.countP DraftCall.closes < calls.countP DraftCall.opens ∧ breach =
          .openSections (calls.countP DraftCall.opens - calls.countP DraftCall.closes)) ∧
      (∀ module, draft.finish = .ok module ↔ module.name = name ∧ module.ports = ports ∧
        Arranged ports (calls.zip replies) module.body) ∧
      (∀ module, draft.finish = .ok module →
        module.items = DraftTrace.contributions ports (calls.zip replies) ∧
          Item.filledAll module.body = true) ∧
      ∀ values,
        (Port.Fit (start name ports).outputs values →
          ∃ next, draft.perform (.driveOutputs values) = .ok (.done, next) ∧
            next.items = draft.items ++ Item.driving (start name ports).outputs values) ∧
        (¬Port.Fit (start name ports).outputs values →
          ∃ error, draft.perform (.driveOutputs values) = .ok (.refused error, draft)) := by
  refine ⟨fun breach => run_start_eq_error_iff, fun replies draft built => ?_⟩
  have depth := depth_of_start built
  have outputs : draft.outputs = (start name ports).outputs := by
    rw [ModuleDraft.outputs, ((accounts_start name ports).run built).given]
    rfl
  refine ⟨fun breach => ?_, fun module => finish_eq_ok_iff_arranged built,
    fun module finished => ?_, fun values => ?_⟩
  · rw [finish_eq_error_iff, ← depth, Nat.add_sub_cancel, ← List.length_pos_iff]
    constructor
    · exact fun ⟨opened, same⟩ => ⟨by omega, same⟩
    · exact fun ⟨more, same⟩ => ⟨by omega, same⟩
  · obtain ⟨-, -, arranged⟩ := (finish_eq_ok_iff_arranged built).mp finished
    exact ⟨arranged.flattenAll_eq, arranged.filled⟩
  · rw [← outputs]
    constructor
    · intro fit
      refine ⟨_, perform_driveOutputs_of_fit fit, ?_⟩
      rw [items_put, Item.flattenAll_driving]
    · exact perform_driveOutputs_of_not_fit

/-- Sections within a section, one of them empty, and values that are refused before others drive
the output. -/
def nestedCalls : List DraftCall :=
  [.enterSection "outer", .enterSection "empty", .leaveSection, .declare .top "a" (.reg 8),
    .driveOutputs [.x 1], .enterSection "inner", .combinational [], .leaveSection, .leaveSection,
    .driveOutputs [.ident "a" 8]]

theorem sections_keep_items_nested :
    ∃ draft module, (start "m" [.output 8 "q"]).run nestedCalls =
        .ok ([.done, .done, .done, .declared (.signal (.ident "a" 8)),
          .refused (.outputWidth "q" 8 1), .done, .done, .done, .done, .done], draft) ∧
      draft.finish = .ok module ∧
      module.items = [.declarations [.reg 8 "a"], .always .anyChange [],
        .assigns [⟨.ident "q", .ident "a"⟩]] ∧
      Item.filledAll module.body = true ∧
      (∃ next, draft.perform (.driveOutputs [.ident "a" 8]) = .ok (.done, next)) ∧
      ∃ error, draft.perform (.driveOutputs [.x 1]) = .ok (.refused error, draft) := by
  have answers : ((start "m" [.output 8 "q"]).run nestedCalls).map Prod.fst = .ok
      [.done, .done, .done, .declared (.signal (.ident "a" 8)), .refused (.outputWidth "q" 8 1),
        .done, .done, .done, .done, .done] := by decide +kernel
  cases built : (start "m" [.output 8 "q"]).run nestedCalls with
  | error breach =>
    rw [built] at answers
    cases answers
  | ok result =>
    obtain ⟨replies, draft⟩ := result
    rw [built] at answers
    cases answers
    obtain ⟨leftOpen, -, kept, driven⟩ :=
      (sections_keep_items "m" [.output 8 "q"] nestedCalls).2 _ draft built
    cases finished : draft.finish with
    | error breach => exact absurd ((leftOpen breach).mp finished).1 (by decide)
    | ok module =>
      obtain ⟨items, filled⟩ := kept module finished
      obtain ⟨next, done, -⟩ := (driven [.ident "a" 8]).1 (.cons rfl .nil)
      have narrow : ¬Port.Fit (start "m" [.output 8 "q"]).outputs [.x 1] := fun fit => by
        cases fit with
        | cons same _ => cases same
      exact ⟨draft, module, rfl, finished, items, filled, ⟨next, done⟩, (driven [.x 1]).2 narrow⟩

end ModuleDraft
end Multiport
