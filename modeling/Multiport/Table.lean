/-! Finite maps from names that remember the order in which they were filled. Inserting under a
name that is taken drops the old entry and adds the new one at the end; adjusting keeps the place.
Names stay distinct by construction. -/
namespace Multiport

/-- An insertion-ordered map from names to values. -/
@[ext]
structure Table (Value : Type) where
  entries : List (String × Value)
  nodup : (entries.map Prod.fst).Nodup

namespace Table
variable {Value : Type}

instance [DecidableEq Value] : DecidableEq (Table Value) := fun left right =>
  decidable_of_iff (left.entries = right.entries) <| by
    cases left; cases right; simp

def empty : Table Value := ⟨[], List.nodup_nil⟩

instance : Inhabited (Table Value) := ⟨empty⟩

def keys (table : Table Value) : List String := table.entries.map Prod.fst

def values (table : Table Value) : List Value := table.entries.map Prod.snd

def get? (table : Table Value) (key : String) : Option Value := table.entries.lookup key

def contains (table : Table Value) (key : String) : Bool := (table.get? key).isSome

/-- The table without one name; the others keep their order. -/
def erase (table : Table Value) (key : String) : Table Value where
  entries := table.entries.filter fun entry => entry.1 ≠ key
  nodup := table.nodup.sublist (List.filter_sublist.map Prod.fst)

/-- Adds an entry at the end, dropping an older one under the same name. -/
def insert (table : Table Value) (key : String) (value : Value) : Table Value where
  entries := (table.erase key).entries ++ [(key, value)]
  nodup := by
    rw [List.map_append, List.nodup_append]
    refine ⟨(table.erase key).nodup, by simp, ?_⟩
    intro name member other single same
    simp only [List.map_cons, List.map_nil, List.mem_singleton] at single
    obtain ⟨entry, kept, rfl⟩ := List.mem_map.mp member
    simp [erase, same, single] at kept

/-- Changes the value under one name in its place. -/
def adjust (table : Table Value) (key : String) (change : Value → Value) : Table Value where
  entries := table.entries.map fun entry =>
    if entry.1 = key then (entry.1, change entry.2) else entry
  nodup := by
    rw [List.map_map]
    have same : (Prod.fst ∘ fun entry : String × Value =>
        if entry.1 = key then (entry.1, change entry.2) else entry) = Prod.fst := by
      funext entry
      simp only [Function.comp_apply]
      split <;> rfl
    rw [same]
    exact table.nodup

def insertAll (table : Table Value) (entries : List (String × Value)) : Table Value :=
  entries.foldl (fun table entry => table.insert entry.1 entry.2) table

def ofList (entries : List (String × Value)) : Table Value := empty.insertAll entries

private theorem lookup_entry (entry : String × Value) (rest : List (String × Value))
    (name : String) :
    (entry :: rest).lookup name = if name = entry.1 then some entry.2 else rest.lookup name := by
  obtain ⟨key, value⟩ := entry
  rw [List.lookup_cons]
  by_cases same : name = key
  · simp [same]
  · simp [same, beq_eq_false_iff_ne.mpr same]

private theorem lookup_filter (entries : List (String × Value)) (key name : String) :
    (entries.filter fun entry => entry.1 ≠ key).lookup name =
      if name = key then none else entries.lookup name := by
  induction entries with
  | nil => simp
  | cons entry rest ih =>
    by_cases dropped : entry.1 = key
    · rw [List.filter_cons_of_neg (by simpa using dropped), ih, lookup_entry, dropped]
      by_cases found : name = key <;> simp [found]
    · rw [List.filter_cons_of_pos (by simpa using dropped), lookup_entry, lookup_entry, ih]
      by_cases found : name = entry.1
      · simp [found, dropped]
      · simp [found]

private theorem lookup_append (left right : List (String × Value)) (name : String) :
    (left ++ right).lookup name = (left.lookup name).or (right.lookup name) := by
  induction left with
  | nil => simp
  | cons entry rest ih =>
    rw [List.cons_append, lookup_entry, lookup_entry, ih]
    by_cases found : name = entry.1 <;> simp [found]

@[simp] theorem get?_empty (name : String) : (empty : Table Value).get? name = none := rfl

theorem get?_erase (table : Table Value) (key name : String) :
    (table.erase key).get? name = if name = key then none else table.get? name :=
  lookup_filter table.entries key name

theorem get?_insert (table : Table Value) (key name : String) (value : Value) :
    (table.insert key value).get? name = if name = key then some value else table.get? name := by
  have erased : (table.erase key).entries.lookup name =
      if name = key then none else table.get? name := get?_erase table key name
  unfold get? insert
  rw [lookup_append, erased, lookup_entry]
  by_cases same : name = key <;> simp [same, get?]

theorem get?_adjust (table : Table Value) (key name : String) (change : Value → Value) :
    (table.adjust key change).get? name =
      if name = key then (table.get? name).map change else table.get? name := by
  simp only [get?, adjust]
  induction table.entries with
  | nil => simp
  | cons entry rest ih =>
    rw [List.map_cons, lookup_entry, lookup_entry, ih]
    by_cases changed : entry.1 = key
    · by_cases found : name = key <;> simp [changed, found]
    · by_cases found : name = entry.1
      · simp [changed, found]
      · simp [changed, found]

theorem keys_erase (table : Table Value) (key : String) :
    (table.erase key).keys = table.keys.filter (· ≠ key) := by
  simp only [keys, erase, List.filter_map]
  rfl

theorem keys_insert (table : Table Value) (key : String) (value : Value) :
    (table.insert key value).keys = table.keys.filter (· ≠ key) ++ [key] := by
  rw [← keys_erase]
  simp [keys, insert]

@[simp] theorem keys_adjust (table : Table Value) (key : String) (change : Value → Value) :
    (table.adjust key change).keys = table.keys := by
  simp only [keys, adjust, List.map_map]
  apply List.map_congr_left
  intro entry _
  simp only [Function.comp_apply]
  split <;> rfl

theorem contains_iff_mem_keys {table : Table Value} {key : String} :
    table.contains key = true ↔ key ∈ table.keys := by
  simp only [contains, get?, keys]
  induction table.entries with
  | nil => simp
  | cons entry rest ih =>
    rw [lookup_entry, List.map_cons, List.mem_cons]
    by_cases found : key = entry.1
    · simp [found]
    · simp [found, ih]

theorem get?_eq_some_iff {table : Table Value} {key : String} {value : Value} :
    table.get? key = some value ↔ (key, value) ∈ table.entries := by
  obtain ⟨entries, distinct⟩ := table
  simp only [get?]
  induction entries with
  | nil => simp
  | cons entry rest ih =>
    obtain ⟨name, held⟩ := entry
    rw [List.map_cons, List.nodup_cons] at distinct
    rw [List.lookup_cons, List.mem_cons, Prod.mk.injEq]
    by_cases here : key = name
    · subst here
      have alone : (key, value) ∉ rest := fun member =>
        distinct.1 (List.mem_map.mpr ⟨_, member, rfl⟩)
      simp [alone, eq_comm]
    · simp [here, beq_eq_false_iff_ne.mpr here, ih distinct.2]

theorem mem_values_of_get? {table : Table Value} {key : String} {value : Value}
    (found : table.get? key = some value) : value ∈ table.values :=
  List.mem_map.mpr ⟨_, get?_eq_some_iff.mp found, rfl⟩

/-- A table is determined by its names in order and by what is found under them. -/
theorem ext_get? {first second : Table Value} (keys : first.keys = second.keys)
    (values : ∀ name, first.get? name = second.get? name) : first = second := by
  apply Table.ext
  have length := congrArg List.length keys
  simp only [Table.keys, List.length_map] at length
  refine List.ext_getElem length fun index inFirst inSecond => ?_
  have name : first.entries[index].1 = second.entries[index].1 := by
    simpa [Table.keys, inFirst, inSecond] using congrArg (·[index]?) keys
  have held : first.get? first.entries[index].1 = some first.entries[index].2 :=
    get?_eq_some_iff.mpr (List.getElem_mem inFirst)
  have other : second.get? second.entries[index].1 = some second.entries[index].2 :=
    get?_eq_some_iff.mpr (List.getElem_mem inSecond)
  rw [values, name, other, Option.some.injEq] at held
  exact Prod.ext name held.symm

theorem contains_of_mem {table : Table Value} {entry : String × Value}
    (member : entry ∈ table.entries) : table.contains entry.1 = true := by
  rw [contains, get?_eq_some_iff.mpr member]
  rfl

theorem mem_entries_erase {table : Table Value} {key : String} {entry : String × Value} :
    entry ∈ (table.erase key).entries ↔ entry ∈ table.entries ∧ entry.1 ≠ key := by
  simp [erase]

theorem mem_entries_insert {table : Table Value} {key : String} {value : Value}
    {entry : String × Value} :
    entry ∈ (table.insert key value).entries ↔
      (entry ∈ table.entries ∧ entry.1 ≠ key) ∨ entry = (key, value) := by
  rw [insert, List.mem_append, mem_entries_erase, List.mem_singleton]

theorem insert_erase (table : Table Value) (key : String) (value : Value) :
    (table.erase key).insert key value = table.insert key value := by
  apply Table.ext
  simp [insert, erase]

theorem contains_insert {table : Table Value} {key name : String} {value : Value} :
    (table.insert key value).contains name = true ↔ name = key ∨ table.contains name = true := by
  rw [contains, contains, get?_insert]
  by_cases same : name = key <;> simp [same]

theorem contains_insertAll (table : Table Value) (entries : List (String × Value)) {name : String}
    (before : table.contains name = true) : (table.insertAll entries).contains name = true := by
  induction entries generalizing table with
  | nil => exact before
  | cons first rest ih => exact ih _ (contains_insert.mpr (.inr before))

/-- Entries under distinct names take the places of those under the same names, at the end. -/
theorem entries_insertAll (table : Table Value) {entries : List (String × Value)}
    (distinct : (entries.map Prod.fst).Nodup) :
    (table.insertAll entries).entries =
      table.entries.filter (fun entry => entry.1 ∉ entries.map Prod.fst) ++ entries := by
  induction entries generalizing table with
  | nil =>
    rw [List.append_nil, List.filter_eq_self.mpr fun _ _ => by simp]
    rfl
  | cons first rest ih =>
    rw [List.map_cons, List.nodup_cons] at distinct
    have step : table.insertAll (first :: rest) =
        (table.insert first.1 first.2).insertAll rest := rfl
    have kept : [first].filter (fun entry => entry.1 ∉ rest.map Prod.fst) = [first] :=
      List.filter_cons_of_pos (by simpa using distinct.1)
    rw [step, ih _ distinct.2, insert, List.filter_append, kept, erase, List.filter_filter,
      List.append_assoc, List.singleton_append]
    congr 1
    apply List.filter_congr
    intro entry _
    simp only [List.map_cons, List.mem_cons, decide_not, Bool.decide_or, Bool.not_or, ne_eq]
    exact Bool.and_comm _ _

end Table
end Multiport
