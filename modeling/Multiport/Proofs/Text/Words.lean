import Mathlib.Tactic.Tauto
import Multiport.Draft.FreshName
import Multiport.Draft.Scope

namespace Multiport.Text

/-- Two lists that start with entries of one kind and go on with one of another kind split in one
way only. -/
theorem append_inj_of_forall {Entry : Type} {kind : Entry → Bool}
    {first second rest other : List Entry} (firstKind : ∀ entry ∈ first, kind entry = true)
    (secondKind : ∀ entry ∈ second, kind entry = true)
    (restKind : rest.head?.all (!kind ·) = true) (otherKind : other.head?.all (!kind ·) = true)
    (same : first ++ rest = second ++ other) : first = second ∧ rest = other := by
  have stops : ∀ {list : List Entry}, list.head?.all (!kind ·) = true →
      list.takeWhile kind = [] := by
    intro list stop
    cases list with
    | nil => rfl
    | cons entry tail =>
      rw [List.takeWhile_cons_of_neg]
      simpa using stop
  have starts := congrArg (List.takeWhile kind) same
  rw [List.takeWhile_append_of_pos firstKind, List.takeWhile_append_of_pos secondKind,
    stops restKind, stops otherKind, List.append_nil, List.append_nil] at starts
  subst starts
  exact ⟨rfl, List.append_cancel_left same⟩

theorem toList_toString_nat (number : Nat) : (toString number).toList = Nat.toDigits 10 number := by
  simp

theorem isDigit_of_mem_toDigits {number : Nat} :
    ∀ char ∈ Nat.toDigits 10 number, char.isDigit = true :=
  fun _ member => Nat.isDigit_of_mem_toDigits (by decide) (by decide) member

/-- A letter, a digit or one of the two marks that words may hold. -/
def isWordChar (char : Char) : Bool := char.isAlphanum || char == '_' || char == '$'

/-- One or more such characters of which the first is no digit. -/
def isWord (name : String) : Bool :=
  name.toList.head?.any (!·.isDigit) && name.toList.all isWordChar

theorem isWord_iff {name : String} :
    isWord name = true ↔
      (∃ char rest, name.toList = char :: rest ∧ char.isDigit = false) ∧
        ∀ char ∈ name.toList, isWordChar char = true := by
  unfold isWord
  cases name.toList <;> simp

theorem isWord_append {name more : String} (word : isWord name = true)
    (chars : ∀ char ∈ more.toList, isWordChar char = true) : isWord (name ++ more) = true := by
  obtain ⟨⟨char, rest, start, letter⟩, own⟩ := isWord_iff.mp word
  rw [isWord_iff, String.toList_append]
  refine ⟨⟨char, rest ++ more.toList, by rw [start]; rfl, letter⟩, fun other member => ?_⟩
  exact (List.mem_append.mp member).elim (own other) (chars other)

theorem chars_of_isWord {name : String} (word : isWord name = true) :
    ∀ char ∈ name.toList, isWordChar char = true :=
  (isWord_iff.mp word).2

theorem isWordChar_of_isDigit {char : Char} (digit : char.isDigit = true) :
    isWordChar char = true := by
  simp [isWordChar, Char.isAlphanum, digit]

theorem chars_toString_nat (number : Nat) :
    ∀ char ∈ (toString number).toList, isWordChar char = true := by
  rw [toList_toString_nat]
  exact fun char member => isWordChar_of_isDigit (isDigit_of_mem_toDigits char member)

theorem isWord_append_toString {name : String} (word : isWord name = true) (number : Nat) :
    isWord (name ++ toString number) = true :=
  isWord_append word (chars_toString_nat number)

theorem isWord_append_underscore {name more : String} (word : isWord name = true)
    (chars : ∀ char ∈ more.toList, isWordChar char = true) :
    isWord (name ++ "_" ++ more) = true :=
  isWord_append (isWord_append word (by simp [isWordChar])) chars

theorem isWord_intercalate {names : List String} (filled : names ≠ [])
    (words : ∀ name ∈ names, isWord name = true) : isWord ("_".intercalate names) = true := by
  induction names with
  | nil => exact absurd rfl filled
  | cons name rest ih =>
    have word := words name List.mem_cons_self
    by_cases single : rest = []
    · simpa [single] using word
    · rw [String.intercalate_cons_of_ne_nil single]
      exact isWord_append_underscore word <| chars_of_isWord <|
        ih single fun other member => words other (List.mem_cons_of_mem name member)

/-- No line ends within the text. -/
def Unbroken (text : String) : Prop := '\n' ∉ text.toList ∧ '\r' ∉ text.toList

instance (text : String) : Decidable (Unbroken text) :=
  inferInstanceAs (Decidable (_ ∧ _))

@[simp] theorem unbroken_append {first second : String} :
    Unbroken (first ++ second) ↔ Unbroken first ∧ Unbroken second := by
  simp only [Unbroken, String.toList_append, List.mem_append]
  tauto

theorem unbroken_of_chars {text : String} (chars : ∀ char ∈ text.toList, isWordChar char = true) :
    Unbroken text :=
  ⟨fun member => absurd (chars _ member) (by decide),
    fun member => absurd (chars _ member) (by decide)⟩

theorem unbroken_of_isWord {name : String} (word : isWord name = true) : Unbroken name :=
  unbroken_of_chars (chars_of_isWord word)

end Multiport.Text

namespace Multiport

open Text (isWord)

theorem isWord_freshName {name : String} (used : List String) (word : isWord name = true) :
    isWord (freshName used name) = true := by
  unfold freshName
  split
  · split
    · exact Text.isWord_append_underscore word (Text.chars_toString_nat _)
    · exact word
  · exact word

namespace Scope

/-- All names of the scope are words. -/
def Words (scope : Scope) : Prop := ∀ name ∈ scope.names, isWord name = true

theorem Words.enter {scope : Scope} (words : scope.Words) {name : String}
    (word : isWord name = true) : (scope.enter name).Words := by
  intro other member
  rcases List.mem_append.mp member with inScope | isName
  · exact words other inScope
  · rw [List.mem_singleton.mp isName]
    exact word

theorem isWord_qualify {scope : Scope} (words : scope.Words) {name : String}
    (word : isWord name = true) : isWord (scope.qualify name) = true := by
  unfold qualify label?
  split
  · simpa [Text.joinPresent] using word
  · rename_i filled
    have around : scope.names ≠ [] := by simpa using filled
    have label := Text.isWord_intercalate around words
    simpa [Text.joinPresent] using
      Text.isWord_append_underscore label (Text.chars_of_isWord word)

end Scope
end Multiport
