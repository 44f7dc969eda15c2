namespace Multiport

variable {Error Value Result : Type}

@[simp] theorem ok_bind (value : Value) (next : Value → Except Error Result) :
    (Except.ok value >>= next) = next value := rfl

@[simp] theorem error_bind (error : Error) (next : Value → Except Error Result) :
    ((Except.error error : Except Error Value) >>= next) = .error error := rfl

@[simp] theorem pure_eq_ok (value : Value) : (pure value : Except Error Value) = .ok value := rfl

theorem bind_eq_ok_iff {first : Except Error Value} {next : Value → Except Error Result}
    {result : Result} :
    (first >>= next) = .ok result ↔ ∃ value, first = .ok value ∧ next value = .ok result := by
  cases first with
  | error error => simp
  | ok value => simp

theorem exists_ok_of_isOk {outcome : Except Error Value} (success : outcome.isOk = true) :
    ∃ value, outcome = .ok value := by
  cases outcome with
  | error error => cases success
  | ok value => exact ⟨value, rfl⟩

/-- Steps that each succeed on what is good for them, and then do what is known, together do what
is known if all are given what is good. -/
theorem foldlM_eq_ok_iff {State Item : Type} {step : State → Item → Except Error State}
    {after : State → Item → State} {good : Item → Prop}
    (each : ∀ state item next, step state item = .ok next ↔ good item ∧ next = after state item)
    (items : List Item) (state last : State) :
    items.foldlM step state = .ok last ↔
      (∀ item ∈ items, good item) ∧ last = items.foldl after state := by
  induction items generalizing state with
  | nil => simp [eq_comm]
  | cons first rest ih =>
    rw [List.foldlM_cons, bind_eq_ok_iff, List.forall_mem_cons, List.foldl_cons]
    constructor
    · rintro ⟨next, done, remaining⟩
      obtain ⟨fits, rfl⟩ := (each state first next).mp done
      obtain ⟨others, rfl⟩ := (ih _).mp remaining
      exact ⟨⟨fits, others⟩, rfl⟩
    · rintro ⟨⟨fits, others⟩, rfl⟩
      exact ⟨_, (each state first _).mpr ⟨fits, rfl⟩, (ih _).mpr ⟨others, rfl⟩⟩

/-- Fails with the fault that was found, if any. -/
def refuse : Option Error → Except Error Unit
  | some fault => .error fault
  | none => .ok ()

@[simp] theorem refuse_none : refuse (none : Option Error) = .ok () := rfl

@[simp] theorem refuse_some (fault : Error) : refuse (some fault) = .error fault := rfl

theorem refuse_eq_ok_iff {found : Option Error} {done : Unit} :
    refuse found = .ok done ↔ found = none := by
  cases found <;> simp [refuse]

/-- The first of some items for which something holds. -/
def First {Item : Type} (items : List Item) (holds : Item → Prop) (item : Item) : Prop :=
  ∃ before after, items = before ++ item :: after ∧ holds item ∧
    ∀ earlier ∈ before, ¬holds earlier

theorem First.holds {Item : Type} {items : List Item} {holds : Item → Prop} {item : Item}
    (first : First items holds item) : holds item := by
  obtain ⟨-, -, -, hold, -⟩ := first
  exact hold

/-- What is found for some items is found for the first that has something. -/
theorem findSome?_eq_some_iff_first {Item : Type} {found? : Item → Option Value}
    {holds : Item → Prop} (clean : ∀ item, found? item = none ↔ ¬holds item) {items : List Item}
    {value : Value} :
    items.findSome? found? = some value ↔
      ∃ item, First items holds item ∧ found? item = some value := by
  simp only [List.findSome?_eq_some_iff, clean]
  constructor
  · rintro ⟨before, item, after, order, found, passed⟩
    have hold : holds item := Classical.byContradiction fun other => by
      rw [(clean item).mpr other] at found
      cases found
    exact ⟨item, ⟨before, after, order, hold, passed⟩, found⟩
  · rintro ⟨item, ⟨before, after, order, -, passed⟩, found⟩
    exact ⟨before, item, after, order, found, passed⟩

/-- What satisfies a test first is the first for which the test holds. -/
theorem find?_eq_some_iff_first {Item : Type} {holds : Item → Prop} [DecidablePred holds]
    {items : List Item} {item : Item} :
    (items.find? fun item => holds item) = some item ↔ First items holds item := by
  rw [List.find?_eq_some_iff_append, First]
  simp only [decide_eq_true_eq, Bool.not_eq_true', decide_eq_false_iff_not]
  constructor
  · rintro ⟨hold, before, after, order, passed⟩
    exact ⟨before, after, order, hold, passed⟩
  · rintro ⟨before, after, order, hold, passed⟩
    exact ⟨hold, before, after, order, passed⟩

end Multiport
