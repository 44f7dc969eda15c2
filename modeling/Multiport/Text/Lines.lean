namespace Multiport.Text

/-- A carriage return that ends a reversed line is part of the line break. -/
private def dropReturn : List Char → List Char
  | '\r' :: line => line
  | line => line

/-- Cuts what follows a partial line, held in reverse. Only a line feed ends a line, together with
one carriage return before it; what is left after the last line feed is a line unless empty. -/
def linesFrom (line : List Char) : List Char → List (List Char)
  | [] => if line.isEmpty then [] else [line.reverse]
  | '\n' :: rest => (dropReturn line).reverse :: linesFrom [] rest
  | c :: rest => linesFrom (c :: line) rest

def lines (text : String) : List String := (linesFrom [] text.toList).map String.ofList

/-- Joins lines or other parts with a line feed between them. -/
def joinLines (parts : List String) : String := "\n".intercalate parts

/-- Puts `depth` blanks before every line. -/
def indent (depth : Nat) (text : String) : String :=
  joinLines ((lines text).map fun line => String.ofList (List.replicate depth ' ') ++ line)

/-- Joins the parts that are present; nothing if none is. -/
def joinPresent (separator : String) (parts : List (Option String)) : Option String :=
  match parts.filterMap id with
  | [] => none
  | present => some (separator.intercalate present)

@[simp] theorem lines_empty : lines "" = [] := rfl

theorem indent_empty (depth : Nat) : indent depth "" = "" := rfl

private theorem linesFrom_of_not_mem (line rest : List Char) (plain : '\n' ∉ rest) :
    linesFrom line rest =
      if line.isEmpty && rest.isEmpty then [] else [line.reverse ++ rest] := by
  induction rest generalizing line with
  | nil => cases line <;> simp [linesFrom]
  | cons c rest ih =>
    have other : c ≠ '\n' := fun h => plain (h ▸ List.mem_cons_self)
    rw [linesFrom.eq_3 line c rest other,
      ih (c :: line) (fun h => plain (List.mem_cons_of_mem c h))]
    simp

theorem lines_of_not_mem {text : String} (plain : '\n' ∉ text.toList) (filled : text ≠ "") :
    lines text = [text] := by
  have nonempty : text.toList ≠ [] := fun h => filled (by simpa using h)
  simp [lines, linesFrom_of_not_mem [] text.toList plain, nonempty]

private theorem linesFrom_append (line part rest : List Char) (plain : '\n' ∉ part) :
    linesFrom line (part ++ '\n' :: rest) =
      (dropReturn (part.reverse ++ line)).reverse :: linesFrom [] rest := by
  induction part generalizing line with
  | nil => rfl
  | cons c part ih =>
    have other : c ≠ '\n' := fun h => plain (h ▸ List.mem_cons_self)
    rw [List.cons_append, linesFrom.eq_3 line c _ other,
      ih (c :: line) fun h => plain (List.mem_cons_of_mem c h)]
    simp

private theorem dropReturn_of_not_mem {line : List Char} (plain : '\r' ∉ line) :
    dropReturn line = line := by
  unfold dropReturn
  split
  · exact absurd List.mem_cons_self plain
  · rfl

/-- The lines of joined parts are the parts, unless the last part shows no line at all. -/
theorem lines_joinLines {parts : List String}
    (plain : ∀ part ∈ parts, '\n' ∉ part.toList ∧ '\r' ∉ part.toList)
    (filled : parts.getLast? ≠ some "") : lines (joinLines parts) = parts := by
  induction parts with
  | nil => rfl
  | cons part rest ih =>
    obtain ⟨noFeed, noReturn⟩ := plain part List.mem_cons_self
    cases rest with
    | nil =>
      rw [joinLines, String.intercalate_singleton]
      exact lines_of_not_mem noFeed (by simpa using filled)
    | cons next rest =>
      have later := ih (fun other member => plain other (List.mem_cons_of_mem part member))
        (by simpa using filled)
      have text : (joinLines (part :: next :: rest)).toList =
          part.toList ++ '\n' :: (joinLines (next :: rest)).toList := by
        rw [joinLines, String.intercalate_cons_cons, String.toList_append, String.toList_append]
        simp [joinLines]
      rw [lines] at later ⊢
      rw [text, linesFrom_append [] part.toList _ noFeed, List.append_nil,
        dropReturn_of_not_mem (by simpa using noReturn), List.reverse_reverse, List.map_cons,
        later, String.ofList_toList]

theorem joinPresent_eq_none_iff {separator : String} {parts : List (Option String)} :
    joinPresent separator parts = none ↔ ∀ part ∈ parts, part = none := by
  unfold joinPresent
  split
  · rename_i empty
    simpa [List.filterMap_eq_nil_iff] using empty
  · rename_i nonempty
    simp only [reduceCtorEq, false_iff]
    intro absent
    exact nonempty (List.filterMap_eq_nil_iff.mpr fun part member => by simp [absent part member])

end Multiport.Text
