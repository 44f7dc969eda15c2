import Mathlib.Data.List.Basic
import Multiport.Netlist.Module
import Multiport.Proofs.Text.Words

namespace Multiport

open Text (isWord isWordChar)

namespace Expr

def isConditional : Expr → Bool
  | cond _ _ _ => true
  | number _ | ident _ | word _ _ | paren _ | binary _ _ _ => false

/-- Names are words, operands are primary, and no condition is a conditional. -/
def isLegible : Expr → Bool
  | number _ => true
  | ident name => isWord name
  | word array index => isWord array && index.isLegible
  | paren inner => inner.isLegible
  | binary _ left right =>
      left.isPrimary && right.isPrimary && left.isLegible && right.isLegible
  | cond condition onTrue onFalse =>
      !condition.isConditional && condition.isLegible && onTrue.isLegible && onFalse.isLegible

/-- How loosely an expression binds. -/
def looseness : Expr → Nat
  | number _ | ident _ | word _ _ | paren _ => 0
  | binary _ _ _ => 1
  | cond _ _ _ => 2

theorem looseness_le (expr : Expr) : expr.looseness ≤ 2 := by
  cases expr <;> simp [looseness]

theorem looseness_of_isAssignable {expr : Expr} (assignable : expr.isAssignable = true) :
    expr.looseness ≤ 0 := by
  cases expr <;> simp_all [isAssignable, looseness]

theorem isPrimary_iff_looseness {expr : Expr} : expr.isPrimary = true ↔ expr.looseness = 0 := by
  cases expr <;> simp [isPrimary, looseness]

theorem isConditional_iff_looseness {expr : Expr} :
    expr.isConditional = false ↔ expr.looseness ≤ 1 := by
  cases expr <;> simp [isConditional, looseness]

theorem isLegible_binary_iff {op : BinaryOp} {left right : Expr} :
    (binary op left right).isLegible = true ↔
      (left.isLegible = true ∧ left.looseness = 0) ∧
        right.isLegible = true ∧ right.looseness = 0 := by
  simp only [isLegible, Bool.and_eq_true, isPrimary_iff_looseness]
  tauto

theorem isLegible_cond_iff {condition onTrue onFalse : Expr} :
    (cond condition onTrue onFalse).isLegible = true ↔
      (condition.isLegible = true ∧ condition.looseness ≤ 1) ∧
        onTrue.isLegible = true ∧ onFalse.isLegible = true := by
  simp only [isLegible, Bool.and_eq_true, Bool.not_eq_true', isConditional_iff_looseness]
  tauto

theorem isLegible_toPrimary {expr : Expr} (legible : expr.isLegible = true) :
    expr.toPrimary.isLegible = true := by
  unfold toPrimary
  split
  · exact legible
  · exact legible

theorem isLegible_combine (op : BinaryOp) {left right : Expr} (inLeft : left.isLegible = true)
    (inRight : right.isLegible = true) : (combine op left right).isLegible = true := by
  simp [combine, isLegible, isLegible_toPrimary inLeft, isLegible_toPrimary inRight]

end Expr

def BinaryOp.between (op : BinaryOp) : List Char := ' ' :: (op.symbol.toList ++ [' '])

/-- The digits in the literal of a vector: one for all if nothing is known. -/
def Bits.digits (bits : Bits) : List Char :=
  if bits.isX then ['x'] else bits.toList.reverse.map Bit.toChar

namespace Expr

/-- The text of an expression and what follows it, character by character. -/
def text (expr : Expr) (rest : List Char) : List Char := expr.render.toList ++ rest

theorem text_number (bits : Bits) (rest : List Char) :
    (number bits).text rest =
      Nat.toDigits 10 bits.width ++ ("'b".toList ++ (bits.digits ++ rest)) := by
  unfold text render Bits.digits
  split <;> simp [Bits.render]

theorem text_ident (name : String) (rest : List Char) :
    (ident name).text rest = name.toList ++ rest := rfl

theorem text_word (array : String) (index : Expr) (rest : List Char) :
    (word array index).text rest = array.toList ++ '[' :: index.text (']' :: rest) := by
  simp [text, render]

theorem text_paren (inner : Expr) (rest : List Char) :
    (paren inner).text rest = '(' :: inner.text (')' :: rest) := by
  simp [text, render]

theorem text_binary (op : BinaryOp) (left right : Expr) (rest : List Char) :
    (binary op left right).text rest = left.text (op.between ++ right.text rest) := by
  simp [text, render, BinaryOp.between]

theorem text_cond (condition onTrue onFalse : Expr) (rest : List Char) :
    (cond condition onTrue onFalse).text rest =
      condition.text (" ? ".toList ++ onTrue.text (" : ".toList ++ onFalse.text rest)) := by
  simp [text, render]

end Expr

/-- What may follow an expression that binds no more loosely than given: nothing that would still
belong to it. -/
structure Stops (looseness : Nat) (rest : List Char) : Prop where
  word : rest.head?.all (!isWordChar ·) = true
  index : rest.head? ≠ some '['
  operator : 1 ≤ looseness → ∀ op : BinaryOp, ¬ op.between <+: rest
  conditional : 2 ≤ looseness → ¬ " ? ".toList <+: rest

namespace Stops

theorem tighten {less more : Nat} {rest : List Char} (stops : Stops more rest)
    (bound : less ≤ more) : Stops less rest :=
  ⟨stops.word, stops.index, fun loose => stops.operator (Nat.le_trans loose bound),
    fun loose => stops.conditional (Nat.le_trans loose bound)⟩

theorem nil (looseness : Nat) : Stops looseness [] :=
  ⟨rfl, nofun, fun _ op => by cases op <;> simp [BinaryOp.between], fun _ => by simp⟩

theorem mark (looseness : Nat) {char : Char} (rest : List Char) (closing : char ∈ [']', ')', ';']) :
    Stops looseness (char :: rest) := by
  obtain ⟨noWord, noIndex, noBlank⟩ : isWordChar char = false ∧ char ≠ '[' ∧ char ≠ ' ' := by
    simp only [List.mem_cons, List.not_mem_nil, or_false] at closing
    rcases closing with rfl | rfl | rfl <;> decide
  constructor
  case word => simp [noWord]
  case index => simpa using noIndex
  case operator => exact fun _ op => by simp [BinaryOp.between, noBlank.symm]
  case conditional => exact fun _ => by simp [noBlank.symm]

theorem blank (rest : List Char) : Stops 0 (' ' :: rest) :=
  ⟨rfl, by simp, fun loose => absurd loose (by decide), fun loose => absurd loose (by decide)⟩

theorem between (op : BinaryOp) (rest : List Char) : Stops 0 (op.between ++ rest) := blank _

theorem question (rest : List Char) : Stops 1 (" ? ".toList ++ rest) :=
  ⟨rfl, by simp, fun _ op => by cases op <;> simp [BinaryOp.between, BinaryOp.symbol],
    fun loose => absurd loose (by decide)⟩

theorem colon (rest : List Char) : Stops 2 (" : ".toList ++ rest) :=
  ⟨rfl, by simp, fun _ op => by cases op <;> simp [BinaryOp.between, BinaryOp.symbol],
    fun _ => by simp⟩

end Stops

namespace Expr

/-- Among the legible expressions that bind no more loosely than given, the text of this one is
nowhere the text of another, whatever may follow. -/
def Cuts (looseness : Nat) (first : Expr) : Prop :=
  ∀ ⦃second : Expr⦄ ⦃rest other : List Char⦄, second.isLegible = true →
    second.looseness ≤ looseness → Stops looseness rest → Stops looseness other →
    first.text rest = second.text other → first = second ∧ rest = other

/-- Where no more loosely bound expressions are looked for, a text is cut as it is among more. -/
theorem Cuts.loosen {first : Expr} {looseness : Nat} (cuts : first.Cuts looseness) :
    first.Cuts (looseness + 1) := by
  intro second rest other legible bound stops otherStops same
  by_cases near : second.looseness ≤ looseness
  · exact cuts legible near (stops.tighten (Nat.le_succ _)) (otherStops.tighten (Nat.le_succ _)) same
  cases second with
  | number _ | ident _ | word _ _ | paren _ => exact absurd (Nat.zero_le _) near
  | binary op left right =>
    obtain rfl : looseness = 0 := by simp only [Expr.looseness] at near; omega
    obtain ⟨⟨inLeft, primary⟩, -⟩ := isLegible_binary_iff.mp legible
    rw [text_binary] at same
    obtain ⟨-, rfl⟩ := cuts inLeft (Nat.le_of_eq primary) (stops.tighten (Nat.zero_le _)) (.between op _) same
    exact absurd (List.prefix_append _ _) (stops.operator (Nat.le_refl 1) op)
  | cond condition onTrue onFalse =>
    obtain rfl : looseness = 1 := by simp only [Expr.looseness] at near bound; omega
    obtain ⟨⟨inCondition, tight⟩, -⟩ := isLegible_cond_iff.mp legible
    rw [text_cond] at same
    obtain ⟨-, rfl⟩ := cuts inCondition tight (stops.tighten (Nat.le_succ _)) (.question _) same
    exact absurd (List.prefix_append _ _) (stops.conditional (Nat.le_refl 2))

theorem Cuts.mono {first : Expr} {less more : Nat} (cuts : first.Cuts less) (bound : less ≤ more) :
    first.Cuts more := by
  induction bound with
  | refl => exact cuts
  | step _ ih => exact ih.loosen

private theorem exists_digit (bits : Bits) (rest : List Char) :
    ∃ char tail, (number bits).text rest = char :: tail ∧ char.isDigit = true := by
  rw [text_number]
  cases list : Nat.toDigits 10 bits.width with
  | nil => exact absurd list Nat.toDigits_ne_nil
  | cons char digits =>
    exact ⟨char, _, rfl, Text.isDigit_of_mem_toDigits char (list ▸ List.mem_cons_self)⟩

private theorem number_ne_name (bits : Bits) {name : String} (word : isWord name = true)
    (rest other : List Char) : (number bits).text rest ≠ name.toList ++ other := by
  intro same
  obtain ⟨char, tail, number, digit⟩ := exists_digit bits rest
  obtain ⟨⟨start, more, list, letter⟩, -⟩ := Text.isWord_iff.mp word
  rw [number, list, List.cons_append] at same
  rw [(List.cons.inj same).1, letter] at digit
  cases digit

private theorem number_ne_paren (bits : Bits) (rest other : List Char) :
    (number bits).text rest ≠ '(' :: other := by
  intro same
  obtain ⟨char, tail, number, digit⟩ := exists_digit bits rest
  rw [number] at same
  rw [(List.cons.inj same).1] at digit
  exact absurd digit (by decide)

private theorem name_ne_paren {name : String} (word : isWord name = true)
    (rest other : List Char) : name.toList ++ rest ≠ '(' :: other := by
  intro same
  obtain ⟨⟨start, more, list, -⟩, chars⟩ := Text.isWord_iff.mp word
  have inName := chars start (list ▸ List.mem_cons_self)
  rw [list, List.cons_append] at same
  rw [(List.cons.inj same).1] at inName
  exact absurd inName (by decide)

private theorem name_cut {name second : String} {rest other : List Char}
    (word : isWord name = true) (secondWord : isWord second = true)
    (ends : rest.head?.all (!isWordChar ·) = true)
    (otherEnds : other.head?.all (!isWordChar ·) = true)
    (same : name.toList ++ rest = second.toList ++ other) : name = second ∧ rest = other := by
  obtain ⟨names, rests⟩ := Text.append_inj_of_forall (Text.chars_of_isWord word)
    (Text.chars_of_isWord secondWord) ends otherEnds same
  exact ⟨String.toList_inj.mp names, rests⟩

end Expr

namespace Bits

private theorem chars_digits (bits : Bits) : ∀ char ∈ bits.digits, isWordChar char = true := by
  unfold digits
  split
  · exact List.forall_mem_singleton.mpr rfl
  · intro char member
    obtain ⟨bit, -, rfl⟩ := List.mem_map.mp member
    cases bit <;> decide

private theorem toChar_injective : Function.Injective Bit.toChar := by
  intro first second
  cases first <;> cases second <;> decide

private theorem eq_x_of_isX {bits : Bits} (unknown : bits.isX = true) : bits = x bits.width := by
  obtain ⟨list⟩ := bits
  refine congrArg ofList (List.eq_replicate_of_mem fun bit member => ?_)
  simpa using List.all_eq_true.mp unknown bit member

private theorem isX_of_map_eq {bits : Bits} (single : bits.toList.reverse.map Bit.toChar = ['x']) :
    bits.isX = true := by
  have reversed : bits.toList.reverse = [.x] :=
    List.map_injective_iff.mpr toChar_injective single
  rw [isX, ← List.all_reverse, reversed]
  rfl

private theorem isX_of_digits {first second : Bits} (unknown : first.isX = true)
    (same : first.digits = second.digits) : second.isX = true := by
  by_contra known
  apply known
  apply isX_of_map_eq
  rw [digits, digits, if_pos unknown, if_neg known] at same
  exact same.symm

private theorem eq_of_digits {first second : Bits} (widths : first.width = second.width)
    (same : first.digits = second.digits) : first = second := by
  by_cases unknown : first.isX = true
  · calc first = x first.width := eq_x_of_isX unknown
      _ = x second.width := by rw [widths]
      _ = second := (eq_x_of_isX (isX_of_digits unknown same)).symm
  · have known : ¬ second.isX = true := fun other => unknown (isX_of_digits other same.symm)
    rw [digits, digits, if_neg unknown, if_neg known] at same
    have lists := List.map_injective_iff.mpr toChar_injective same
    exact congrArg ofList (List.reverse_injective lists)

end Bits

namespace Expr

private theorem cuts_number (bits : Bits) : (number bits).Cuts 0 := by
  intro second rest other legible bound stops otherStops same
  cases second with
  | number held =>
    rw [text_number, text_number] at same
    obtain ⟨widths, literals⟩ := Text.append_inj_of_forall Text.isDigit_of_mem_toDigits
      Text.isDigit_of_mem_toDigits rfl rfl same
    have width : bits.width = held.width := by
      apply toString_nat_injective
      rw [Nat.toString_eq_ofList_toDigits, Nat.toString_eq_ofList_toDigits, widths]
    obtain ⟨digits, rests⟩ := Text.append_inj_of_forall bits.chars_digits held.chars_digits
      stops.word otherStops.word (List.append_cancel_left literals)
    exact ⟨congrArg number (Bits.eq_of_digits width digits), rests⟩
  | ident name => exact absurd same (number_ne_name bits legible _ _)
  | word array index =>
    rw [text_word] at same
    simp only [isLegible, Bool.and_eq_true] at legible
    exact absurd same (number_ne_name bits legible.1 _ _)
  | paren inner =>
    rw [text_paren] at same
    exact absurd same (number_ne_paren bits _ _)
  | binary _ _ _ | cond _ _ _ => exact absurd bound (by simp [looseness])

private theorem cuts_ident {name : String} (named : isWord name = true) : (ident name).Cuts 0 := by
  intro second rest other legible bound stops otherStops same
  cases second with
  | number bits => exact absurd same.symm (number_ne_name bits named _ _)
  | ident second =>
    obtain ⟨rfl, rests⟩ := name_cut named legible stops.word otherStops.word same
    exact ⟨rfl, rests⟩
  | word array index =>
    simp only [isLegible, Bool.and_eq_true] at legible
    rw [text_ident, text_word] at same
    obtain ⟨-, rfl⟩ := name_cut named legible.1 stops.word rfl same
    exact absurd rfl stops.index
  | paren inner =>
    rw [text_paren] at same
    exact absurd same (name_ne_paren named _ _)
  | binary _ _ _ | cond _ _ _ => exact absurd bound (by simp [looseness])

private theorem cuts_word {array : String} {index : Expr} (named : isWord array = true)
    (inside : index.Cuts 2) : (word array index).Cuts 0 := by
  intro second rest other legible bound stops otherStops same
  rw [text_word] at same
  cases second with
  | number bits => exact absurd same.symm (number_ne_name bits named _ _)
  | ident name =>
    obtain ⟨-, rests⟩ := name_cut named legible rfl otherStops.word same
    exact absurd (by rw [← rests]; rfl) otherStops.index
  | word second place =>
    simp only [isLegible, Bool.and_eq_true] at legible
    rw [text_word] at same
    obtain ⟨rfl, places⟩ := name_cut named legible.1 rfl rfl same
    obtain ⟨rfl, rests⟩ := inside legible.2 (looseness_le place)
      (.mark 2 rest (by decide)) (.mark 2 other (by decide)) (List.cons.inj places).2
    exact ⟨rfl, (List.cons.inj rests).2⟩
  | paren inner =>
    rw [text_paren] at same
    exact absurd same (name_ne_paren named _ _)
  | binary _ _ _ | cond _ _ _ => exact absurd bound (by simp [looseness])

private theorem cuts_paren {inner : Expr} (inside : inner.Cuts 2) : (paren inner).Cuts 0 := by
  intro second rest other legible bound stops otherStops same
  rw [text_paren] at same
  cases second with
  | number bits => exact absurd same.symm (number_ne_paren bits _ _)
  | ident name => exact absurd same.symm (name_ne_paren legible _ _)
  | word array index =>
    simp only [isLegible, Bool.and_eq_true] at legible
    rw [text_word] at same
    exact absurd same.symm (name_ne_paren legible.1 _ _)
  | paren content =>
    have inContent : content.isLegible = true := legible
    rw [text_paren] at same
    obtain ⟨rfl, rests⟩ := inside inContent (looseness_le content)
      (.mark 2 rest (by decide)) (.mark 2 other (by decide)) (List.cons.inj same).2
    exact ⟨rfl, (List.cons.inj rests).2⟩
  | binary _ _ _ | cond _ _ _ => exact absurd bound (by simp [looseness])

private theorem cuts_binary (op : BinaryOp) {left right : Expr} (inLeft : left.Cuts 0)
    (inRight : right.Cuts 0) : (binary op left right).Cuts 1 := by
  intro second rest other legible bound stops otherStops same
  rw [text_binary] at same
  cases second with
  | number _ | ident _ | word _ _ | paren _ =>
    obtain ⟨-, rfl⟩ := inLeft legible (Nat.le_refl 0) (.between op _)
      (otherStops.tighten (Nat.zero_le 1)) same
    exact absurd (List.prefix_append _ _) (otherStops.operator (Nat.le_refl 1) op)
  | binary second first last =>
    obtain ⟨⟨firstLegible, firstPrimary⟩, lastLegible, lastPrimary⟩ :=
      isLegible_binary_iff.mp legible
    rw [text_binary] at same
    obtain ⟨rfl, betweens⟩ := inLeft firstLegible (Nat.le_of_eq firstPrimary) (.between op _)
      (.between second _) same
    obtain ⟨rfl, rights⟩ : op = second ∧ right.text rest = last.text other := by
      cases op <;> cases second <;> simp_all [BinaryOp.between, BinaryOp.symbol]
    obtain ⟨rfl, rests⟩ := inRight lastLegible (Nat.le_of_eq lastPrimary)
      (stops.tighten (Nat.zero_le 1)) (otherStops.tighten (Nat.zero_le 1)) rights
    exact ⟨rfl, rests⟩
  | cond _ _ _ => exact absurd bound (by simp [looseness])

private theorem cuts_cond {condition onTrue onFalse : Expr} (inCondition : condition.Cuts 1)
    (inTrue : onTrue.Cuts 2) (inFalse : onFalse.Cuts 2) :
    (cond condition onTrue onFalse).Cuts 2 := by
  intro second rest other legible bound stops otherStops same
  rw [text_cond] at same
  by_cases tight : second.looseness ≤ 1
  · obtain ⟨-, rfl⟩ := inCondition legible tight (.question _)
      (otherStops.tighten (Nat.le_succ 1)) same
    exact absurd (List.prefix_append _ _) (otherStops.conditional (Nat.le_refl 2))
  cases second with
  | number _ | ident _ | word _ _ | paren _ | binary _ _ _ =>
    exact absurd (by simp [looseness]) tight
  | cond decided yes no =>
    obtain ⟨⟨decidedLegible, decidedTight⟩, yesLegible, noLegible⟩ :=
      isLegible_cond_iff.mp legible
    rw [text_cond] at same
    obtain ⟨rfl, questions⟩ := inCondition decidedLegible decidedTight (.question _) (.question _)
      same
    obtain ⟨rfl, colons⟩ := inTrue yesLegible (looseness_le yes) (.colon _) (.colon _)
      (List.append_cancel_left questions)
    obtain ⟨rfl, rests⟩ := inFalse noLegible (looseness_le no) stops otherStops
      (List.append_cancel_left colons)
    exact ⟨rfl, rests⟩

theorem cuts_of_isLegible {first : Expr} (legible : first.isLegible = true) :
    first.Cuts first.looseness := by
  induction first with
  | number bits => exact cuts_number bits
  | ident name => exact cuts_ident legible
  | word array index ih =>
    simp only [isLegible, Bool.and_eq_true] at legible
    exact cuts_word legible.1 ((ih legible.2).mono index.looseness_le)
  | paren inner ih => exact cuts_paren ((ih legible).mono inner.looseness_le)
  | binary op left right leftIh rightIh =>
    obtain ⟨⟨inLeft, leftPrimary⟩, inRight, rightPrimary⟩ := isLegible_binary_iff.mp legible
    exact cuts_binary op (leftPrimary ▸ leftIh inLeft) (rightPrimary ▸ rightIh inRight)
  | cond condition onTrue onFalse conditionIh trueIh falseIh =>
    obtain ⟨⟨inCondition, tight⟩, inTrue, inFalse⟩ := isLegible_cond_iff.mp legible
    exact cuts_cond ((conditionIh inCondition).mono tight) ((trueIh inTrue).mono onTrue.looseness_le)
      ((falseIh inFalse).mono onFalse.looseness_le)

/-- Two legible expressions, each followed by something that stops it, have the same text only if
they are the same expression. -/
theorem text_inj {first second : Expr} {rest other : List Char}
    (firstLegible : first.isLegible = true) (secondLegible : second.isLegible = true)
    (stops : Stops 2 rest) (otherStops : Stops 2 other) (same : first.text rest = second.text other) :
    first = second ∧ rest = other :=
  (cuts_of_isLegible firstLegible).mono first.looseness_le secondLegible second.looseness_le stops
    otherStops same

theorem render_injective {first second : Expr} (firstLegible : first.isLegible = true)
    (secondLegible : second.isLegible = true) (same : first.render = second.render) :
    first = second :=
  (text_inj firstLegible secondLegible (.nil 2) (.nil 2) (by rw [text, text, same])).1

theorem unbroken_render {expr : Expr} (legible : expr.isLegible = true) :
    Text.Unbroken expr.render := by
  induction expr with
  | number bits =>
    have literal : Text.Unbroken (String.ofList bits.digits) :=
      Text.unbroken_of_chars (by simpa using bits.chars_digits)
    have width := Text.unbroken_of_chars (Text.chars_toString_nat bits.width)
    have mark : Text.Unbroken "'b" := by decide
    have whole : (number bits).render =
        toString bits.width ++ "'b" ++ String.ofList bits.digits := by
      rw [← String.toList_inj]
      simpa [text] using text_number bits []
    rw [whole]
    exact Text.unbroken_append.mpr ⟨Text.unbroken_append.mpr ⟨width, mark⟩, literal⟩
  | ident name => exact Text.unbroken_of_isWord legible
  | word array index ih =>
    simp only [isLegible, Bool.and_eq_true] at legible
    simp only [render, Text.unbroken_append]
    exact ⟨⟨⟨Text.unbroken_of_isWord legible.1, by decide⟩, ih legible.2⟩, by decide⟩
  | paren inner ih =>
    simp only [render, Text.unbroken_append]
    exact ⟨⟨by decide, ih legible⟩, by decide⟩
  | binary op left right leftIh rightIh =>
    obtain ⟨⟨inLeft, -⟩, inRight, -⟩ := isLegible_binary_iff.mp legible
    have symbol : Text.Unbroken op.symbol := by cases op <;> decide
    simp only [render, Text.unbroken_append]
    exact ⟨⟨⟨⟨leftIh inLeft, by decide⟩, symbol⟩, by decide⟩, rightIh inRight⟩
  | cond condition onTrue onFalse conditionIh trueIh falseIh =>
    obtain ⟨⟨inCondition, -⟩, inTrue, inFalse⟩ := isLegible_cond_iff.mp legible
    simp only [render, Text.unbroken_append]
    exact ⟨⟨⟨⟨conditionIh inCondition, by decide⟩, trueIh inTrue⟩, by decide⟩, falseIh inFalse⟩

end Expr
end Multiport
