import Multiport.Proofs.Netlist.Legible

namespace Multiport

open Text (Unbroken joinLines)

namespace Statement

mutual

/-- The expressions are legible and the assignments are to something that can be assigned to. -/
def isLegible : Statement → Bool
  | blocking target value | nonblocking target value =>
      target.isAssignable && target.isLegible && value.isLegible
  | cond condition onTrue onFalse =>
      condition.isLegible && allLegible onTrue && allLegible onFalse

def allLegible : List Statement → Bool
  | [] => true
  | statement :: rest => statement.isLegible && allLegible rest

end

/-- A line of a branch. -/
def shifted (line : String) : String := String.ofList (List.replicate indentation ' ') ++ line

/-- The lines of a first branch, which leaves a line of its own if both branches are empty. -/
def firstBranch (first second : List String) : List String :=
  if first.isEmpty && second.isEmpty then [""] else first.map shifted

/-- The lines after a first branch. -/
def afterFirst (second : List String) : List String :=
  if second.isEmpty then ["end"] else "end else begin" :: (second.map shifted ++ ["end"])

def assignLine (atOnce : Bool) (target value : Expr) : String :=
  target.render ++ (if atOnce then " = " else " <= ") ++ value.render ++ ";"

def startLine (condition : Expr) : String := "if (" ++ condition.render ++ ") begin"

mutual

def lines : Statement → List String
  | blocking target value => [assignLine true target value]
  | nonblocking target value => [assignLine false target value]
  | cond condition onTrue onFalse =>
      startLine condition ::
        (firstBranch (linesAll onTrue) (linesAll onFalse) ++ afterFirst (linesAll onFalse))

def linesAll : List Statement → List String
  | [] => []
  | statement :: rest => statement.lines ++ linesAll rest

end

theorem unbroken_shifted {line : String} (unbroken : Unbroken line) : Unbroken (shifted line) :=
  Text.unbroken_append.mpr ⟨by decide, unbroken⟩

private theorem unbroken_branches {first second : List String}
    (inFirst : ∀ line ∈ first, Unbroken line) (inSecond : ∀ line ∈ second, Unbroken line) :
    ∀ line ∈ firstBranch first second ++ afterFirst second, Unbroken line := by
  have moved : ∀ {part : List String}, (∀ line ∈ part, Unbroken line) →
      ∀ line ∈ part.map shifted, Unbroken line := by
    intro part unbroken moved member
    obtain ⟨line, inPart, rfl⟩ := List.mem_map.mp member
    exact unbroken_shifted (unbroken line inPart)
  rw [List.forall_mem_append]
  constructor
  · unfold firstBranch
    split
    · decide
    · exact moved inFirst
  · unfold afterFirst
    split
    · decide
    · rw [List.forall_mem_cons, List.forall_mem_append]
      exact ⟨by decide, moved inSecond, by decide⟩

mutual

theorem unbroken_lines : ∀ {statement : Statement}, statement.isLegible = true →
    ∀ line ∈ statement.lines, Unbroken line
  | blocking target value, legible | nonblocking target value, legible => by
      simp only [isLegible, Bool.and_eq_true] at legible
      obtain ⟨⟨-, inTarget⟩, inValue⟩ := legible
      simp only [lines, List.mem_singleton, forall_eq, assignLine, Text.unbroken_append]
      exact ⟨⟨⟨Expr.unbroken_render inTarget, by decide⟩, Expr.unbroken_render inValue⟩,
        by decide⟩
  | cond condition onTrue onFalse, legible => by
      simp only [isLegible, Bool.and_eq_true] at legible
      obtain ⟨⟨inCondition, inTrue⟩, inFalse⟩ := legible
      rw [lines, List.forall_mem_cons]
      constructor
      · simp only [startLine, Text.unbroken_append]
        exact ⟨⟨by decide, Expr.unbroken_render inCondition⟩, by decide⟩
      · exact unbroken_branches (unbroken_linesAll inTrue) (unbroken_linesAll inFalse)

theorem unbroken_linesAll : ∀ {body : List Statement}, allLegible body = true →
    ∀ line ∈ linesAll body, Unbroken line
  | [], _ => by simp [linesAll]
  | statement :: rest, legible => by
      simp only [allLegible, Bool.and_eq_true] at legible
      rw [linesAll, List.forall_mem_append]
      exact ⟨unbroken_lines legible.1, unbroken_linesAll legible.2⟩

end

theorem exists_getLast?_lines (statement : Statement) :
    ∃ line, statement.lines.getLast? = some line ∧ line ≠ "" := by
  cases statement with
  | blocking target value | nonblocking target value =>
    refine ⟨_, rfl, fun empty => ?_⟩
    have text := congrArg String.toList empty
    simp [assignLine] at text
  | cond condition onTrue onFalse =>
    refine ⟨"end", ?_, by decide⟩
    unfold lines afterFirst
    split <;> simp [List.getLast?_cons, List.getLast?_append]

theorem lines_ne_nil (statement : Statement) : statement.lines ≠ [] := by
  obtain ⟨line, last, -⟩ := statement.exists_getLast?_lines
  rintro empty
  rw [empty] at last
  cases last

theorem getLast?_linesAll (body : List Statement) : (linesAll body).getLast? ≠ some "" := by
  induction body with
  | nil => simp [linesAll]
  | cons statement rest ih =>
    obtain ⟨line, last, filled⟩ := statement.exists_getLast?_lines
    rw [linesAll, List.getLast?_append, last]
    cases later : (linesAll rest).getLast? with
    | none => simpa using filled
    | some line => simpa [later] using ih

theorem isEmpty_linesAll (body : List Statement) : (linesAll body).isEmpty = body.isEmpty := by
  cases body with
  | nil => rfl
  | cons statement rest => simp [linesAll, statement.lines_ne_nil]

private theorem joinLines_cons {line : String} {rest : List String} (filled : rest ≠ []) :
    joinLines (line :: rest) = line ++ "\n" ++ joinLines rest :=
  String.intercalate_cons_of_ne_nil filled

private theorem joinLines_append {first second : List String} (inFirst : first ≠ [])
    (inSecond : second ≠ []) :
    joinLines (first ++ second) = joinLines first ++ "\n" ++ joinLines second :=
  String.intercalate_append_of_ne_nil inFirst inSecond

private theorem indent_block {body : List Statement} (legible : allLegible body = true)
    (text : joinLines (renderAll body) = joinLines (linesAll body)) :
    Text.indent indentation (joinLines (renderAll body)) =
      joinLines ((linesAll body).map shifted) := by
  rw [text, Text.indent,
    Text.lines_joinLines (unbroken_linesAll legible) (getLast?_linesAll body)]
  rfl

private theorem joinLines_closed {inner : List String} (filled : inner ≠ []) :
    joinLines (inner ++ ["end"]) = joinLines inner ++ "\nend" := by
  rw [joinLines_append filled (by simp), String.append_assoc]
  rfl

private theorem joinLines_turned {second : List String} (filled : second ≠ []) :
    joinLines ("end else begin" :: (second ++ ["end"])) =
      "end else begin\n" ++ joinLines second ++ "\nend" := by
  rw [joinLines_cons (by simp), joinLines_closed filled, ← String.append_assoc]
  rfl

private theorem renderCond_eq (condition : Expr) {onTrue onFalse : List Statement}
    (inTrue : allLegible onTrue = true) (inFalse : allLegible onFalse = true)
    (trueText : joinLines (renderAll onTrue) = joinLines (linesAll onTrue))
    (falseText : joinLines (renderAll onFalse) = joinLines (linesAll onFalse)) :
    renderCond condition (renderAll onTrue) (renderAll onFalse) =
      joinLines (cond condition onTrue onFalse).lines := by
  have emptied : ∀ body : List Statement, (renderAll body).isEmpty = (linesAll body).isEmpty := by
    intro body
    rw [isEmpty_linesAll, renderAll_eq_map, List.isEmpty_map]
  have start : "if (" ++ condition.render ++ ") begin\n" = startLine condition ++ "\n" := by
    simp [startLine, String.append_assoc]
  simp only [renderCond, indent_block inTrue trueText, indent_block inFalse falseText, emptied,
    start, lines, firstBranch, afterFirst]
  generalize linesAll onTrue = first, linesAll onFalse = second
  by_cases noSecond : second = []
  · subst noSecond
    by_cases noFirst : first = []
    · simp [noFirst, joinLines, String.append_assoc]
    · have moved : first.map shifted ≠ [] := by simpa using noFirst
      simp [noFirst, joinLines_cons, joinLines_closed moved, String.append_assoc]
  · have shown : second.map shifted ≠ [] := by simpa using noSecond
    have turned := joinLines_turned shown
    by_cases noFirst : first = []
    · simp only [noFirst, List.isEmpty_nil, List.isEmpty_iff, noSecond, ↓reduceIte, Bool.true_and,
        List.map_nil, List.nil_append]
      rw [joinLines_cons (by simp), turned]
      simp only [String.append_assoc]
    · have moved : first.map shifted ≠ [] := by simpa using noFirst
      have between : ("\n" : String) ++ "end else begin\n" = "\nend else begin\n" := rfl
      simp only [List.isEmpty_iff, noFirst, noSecond, ↓reduceIte, Bool.and_eq_true, and_self]
      rw [joinLines_cons (by simp), joinLines_append moved (by simp), turned]
      simp only [String.append_assoc, ← between]

mutual

theorem render_eq_joinLines : ∀ {statement : Statement}, statement.isLegible = true →
    statement.render = joinLines statement.lines
  | blocking target value, _ | nonblocking target value, _ => by
      simp [render, lines, joinLines, assignLine]
  | cond condition onTrue onFalse, legible => by
      simp only [isLegible, Bool.and_eq_true] at legible
      obtain ⟨⟨-, inTrue⟩, inFalse⟩ := legible
      exact renderCond_eq condition inTrue inFalse (joinLines_renderAll inTrue)
        (joinLines_renderAll inFalse)

theorem joinLines_renderAll : ∀ {body : List Statement}, allLegible body = true →
    joinLines (renderAll body) = joinLines (linesAll body)
  | [], _ => rfl
  | [statement], legible => by
      simp only [allLegible, Bool.and_eq_true] at legible
      have text := render_eq_joinLines legible.1
      simpa [renderAll, linesAll, joinLines] using text
  | statement :: next :: rest, legible => by
      simp only [allLegible, Bool.and_eq_true] at legible
      obtain ⟨inFirst, inNext, inRest⟩ := legible
      have inLater : allLegible (next :: rest) = true := by simp [allLegible, inNext, inRest]
      have later := joinLines_renderAll inLater
      have more : linesAll (next :: rest) ≠ [] := by simp [linesAll, next.lines_ne_nil]
      calc joinLines (renderAll (statement :: next :: rest))
          = statement.render ++ "\n" ++ joinLines (renderAll (next :: rest)) :=
            joinLines_cons (by simp [renderAll])
        _ = joinLines statement.lines ++ "\n" ++ joinLines (linesAll (next :: rest)) := by
            rw [render_eq_joinLines inFirst, later]
        _ = joinLines (linesAll (statement :: next :: rest)) :=
            (joinLines_append statement.lines_ne_nil more).symm

end

def isInner (line : String) : Bool := line.toList.head?.all (· == ' ')

theorem isInner_shifted (line : String) : isInner (shifted line) = true := by
  simp [isInner, shifted, indentation, List.replicate]

theorem shifted_injective : Function.Injective shifted :=
  fun _ _ same => (String.append_right_inj _).mp same

private theorem isInner_firstBranch (first second : List String) :
    ∀ line ∈ firstBranch first second, isInner line = true := by
  unfold firstBranch
  split
  · decide
  · intro line member
    obtain ⟨inside, -, rfl⟩ := List.mem_map.mp member
    exact isInner_shifted inside

private theorem isInner_of_mem_map {part : List String} :
    ∀ line ∈ part.map shifted, isInner line = true := by
  intro line member
  obtain ⟨inside, -, rfl⟩ := List.mem_map.mp member
  exact isInner_shifted inside

private theorem afterFirst_append_inj {first second rest other : List String}
    (same : afterFirst first ++ rest = afterFirst second ++ other) :
    first = second ∧ rest = other := by
  have different : ("end" : String) ≠ "end else begin" := by decide
  unfold afterFirst at same
  by_cases noFirst : first = []
  · by_cases noSecond : second = []
    · simp_all
    · simp [noFirst, noSecond, different] at same
  · by_cases noSecond : second = []
    · simp [noFirst, noSecond, different.symm] at same
    · simp only [List.isEmpty_iff, noFirst, noSecond, ↓reduceIte, List.cons_append,
        List.append_assoc, List.cons.injEq, true_and] at same
      obtain ⟨branches, ends⟩ := Text.append_inj_of_forall isInner_of_mem_map isInner_of_mem_map
        rfl rfl same
      exact ⟨List.map_injective_iff.mpr shifted_injective branches, (List.cons.inj ends).2⟩

private theorem branches_append_inj {first second first' second' rest other : List String}
    (same : firstBranch first second ++ afterFirst second ++ rest =
      firstBranch first' second' ++ afterFirst second' ++ other) :
    first = first' ∧ second = second' ∧ rest = other := by
  have stops : ∀ lines more : List String,
      (afterFirst lines ++ more).head?.all (!isInner ·) = true := by
    intro lines more
    unfold afterFirst
    split <;> rfl
  rw [List.append_assoc, List.append_assoc] at same
  obtain ⟨branches, ends⟩ := Text.append_inj_of_forall (isInner_firstBranch _ _)
    (isInner_firstBranch _ _) (stops _ _) (stops _ _) same
  obtain ⟨rfl, rests⟩ := afterFirst_append_inj ends
  refine ⟨?_, rfl, rests⟩
  have filled : ∀ line : String, shifted line ≠ "" := by
    intro line empty
    have text := congrArg String.toList empty
    simp [shifted, indentation] at text
  unfold firstBranch at branches
  split at branches
  · split at branches
    · simp_all
    · exact absurd (List.mem_map.mp (branches ▸ List.mem_singleton_self ""))
        fun ⟨line, _, empty⟩ => filled line empty
  · split at branches
    · exact absurd (List.mem_map.mp (branches ▸ List.mem_singleton_self ""))
        fun ⟨line, _, empty⟩ => filled line empty
    · exact List.map_injective_iff.mpr shifted_injective branches

private theorem assignLine_inj {atOnce atOnce' : Bool} {target value target' value' : Expr}
    (primary : target.isAssignable = true) (primary' : target'.isAssignable = true)
    (inTarget : target.isLegible = true) (inTarget' : target'.isLegible = true)
    (inValue : value.isLegible = true) (inValue' : value'.isLegible = true)
    (same : assignLine atOnce target value = assignLine atOnce' target' value') :
    atOnce = atOnce' ∧ target = target' ∧ value = value' := by
  have text : ∀ (kind : Bool) (place given : Expr), (assignLine kind place given).toList =
      place.text (' ' :: ((if kind then ['='] else ['<', '=']) ++ ' ' :: given.text [';'])) := by
    intro kind place given
    cases kind <;> simp [assignLine, Expr.text]
  have texts := congrArg String.toList same
  rw [text, text] at texts
  obtain ⟨rfl, rests⟩ := (Expr.cuts_of_isLegible inTarget).mono
    (Expr.looseness_of_isAssignable primary) inTarget' (Expr.looseness_of_isAssignable primary')
    (.blank _) (.blank _) texts
  have values : atOnce = atOnce' ∧ value.text [';'] = value'.text [';'] := by
    cases atOnce <;> cases atOnce' <;> simp_all
  obtain ⟨rfl, -⟩ := Expr.text_inj inValue inValue' (.mark 2 [] (by decide))
    (.mark 2 [] (by decide)) values.2
  exact ⟨values.1, rfl, rfl⟩

private theorem assignLine_ne_startLine {atOnce : Bool} {target value condition : Expr}
    (primary : target.isAssignable = true) (inTarget : target.isLegible = true) :
    assignLine atOnce target value ≠ startLine condition := by
  intro same
  have texts : target.text (' ' :: ((if atOnce then ['='] else ['<', '=']) ++
        ' ' :: value.text [';'])) =
      (Expr.ident "if").text (' ' :: '(' :: condition.text ") begin".toList) := by
    have lists := congrArg String.toList same
    cases atOnce <;> simpa [assignLine, startLine, Expr.text, Expr.render] using lists
  obtain ⟨-, rests⟩ := (Expr.cuts_of_isLegible inTarget).mono
    (Expr.looseness_of_isAssignable primary) (by decide) (by decide) (.blank _) (.blank _) texts
  cases atOnce <;> simp at rests

private theorem startLine_inj {first second : Expr} (inFirst : first.isLegible = true)
    (inSecond : second.isLegible = true) (same : startLine first = startLine second) :
    first = second := by
  have text : ∀ condition : Expr,
      (startLine condition).toList = "if (".toList ++ condition.text ") begin".toList := by
    intro condition
    simp [startLine, Expr.text]
  have texts := congrArg String.toList same
  rw [text, text] at texts
  have ends : Stops 2 ") begin".toList := .mark 2 _ (by decide)
  exact (Expr.text_inj inFirst inSecond ends ends (List.append_cancel_left texts)).1

private def assignment (atOnce : Bool) (target value : Expr) : Statement :=
  if atOnce then blocking target value else nonblocking target value

private theorem assignLine_append_inj (atOnce : Bool) {target value : Expr} {second : Statement}
    {rest other : List String}
    (legible : (target.isAssignable && target.isLegible && value.isLegible) = true)
    (otherLegible : second.isLegible = true)
    (same : assignLine atOnce target value :: rest = second.lines ++ other) :
    assignment atOnce target value = second ∧ rest = other := by
  simp only [Bool.and_eq_true] at legible
  obtain ⟨⟨primary, inTarget⟩, inValue⟩ := legible
  cases second with
  | blocking target' value' | nonblocking target' value' =>
    simp only [isLegible, Bool.and_eq_true] at otherLegible
    obtain ⟨⟨primary', inTarget'⟩, inValue'⟩ := otherLegible
    obtain ⟨line, rests⟩ := List.cons.inj same
    obtain ⟨rfl, rfl, rfl⟩ :=
      assignLine_inj primary primary' inTarget inTarget' inValue inValue' line
    exact ⟨rfl, rests⟩
  | cond condition onTrue onFalse =>
    exact absurd (List.cons.inj same).1 (assignLine_ne_startLine primary inTarget)

mutual

/-- The lines of a legible statement tell the statement and where it ends. -/
theorem lines_append_inj : ∀ {first second : Statement} {rest other : List String},
    first.isLegible = true → second.isLegible = true →
    first.lines ++ rest = second.lines ++ other → first = second ∧ rest = other
  | blocking target value, second, rest, other, legible, otherLegible, same =>
      assignLine_append_inj true legible otherLegible same
  | nonblocking target value, second, rest, other, legible, otherLegible, same =>
      assignLine_append_inj false legible otherLegible same
  | cond condition onTrue onFalse, blocking target value, rest, other, legible, otherLegible, same
  | cond condition onTrue onFalse, nonblocking target value, rest, other, legible, otherLegible,
      same => by
      -- No assignment has the line that starts a conditional.
      simp only [isLegible, Bool.and_eq_true] at otherLegible
      exact absurd (List.cons.inj same).1.symm
        (assignLine_ne_startLine otherLegible.1.1 otherLegible.1.2)
  | cond condition onTrue onFalse, cond decided yes no, rest, other, legible, otherLegible, same => by
      simp only [isLegible, Bool.and_eq_true] at legible otherLegible
      obtain ⟨⟨inCondition, inTrue⟩, inFalse⟩ := legible
      obtain ⟨⟨inDecided, inYes⟩, inNo⟩ := otherLegible
      obtain ⟨start, branches⟩ := List.cons.inj same
      obtain ⟨trueLines, falseLines, rests⟩ := branches_append_inj branches
      rw [startLine_inj inCondition inDecided start, linesAll_injective inTrue inYes trueLines,
        linesAll_injective inFalse inNo falseLines]
      exact ⟨rfl, rests⟩

theorem linesAll_injective : ∀ {first second : List Statement}, allLegible first = true →
    allLegible second = true → linesAll first = linesAll second → first = second
  | [], [], _, _, _ => rfl
  | [], statement :: _, _, _, same => by
      simp [linesAll, statement.lines_ne_nil] at same
  | statement :: _, [], _, _, same => by
      simp [linesAll, statement.lines_ne_nil] at same
  | statement :: rest, next :: others, legible, otherLegible, same => by
      simp only [allLegible, Bool.and_eq_true] at legible otherLegible
      obtain ⟨rfl, later⟩ := lines_append_inj legible.1 otherLegible.1 same
      rw [linesAll_injective legible.2 otherLegible.2 later]

end

theorem renderBlock_injective {first second : List Statement} (legible : allLegible first = true)
    (otherLegible : allLegible second = true) (same : renderBlock first = renderBlock second) :
    first = second := by
  rw [renderBlock, renderBlock, joinLines_renderAll legible,
    joinLines_renderAll otherLegible] at same
  have lines := congrArg Text.lines same
  rw [Text.lines_joinLines (unbroken_linesAll legible) (getLast?_linesAll first),
    Text.lines_joinLines (unbroken_linesAll otherLegible) (getLast?_linesAll second)] at lines
  exact linesAll_injective legible otherLegible lines

end Statement

/-- The expressions and statements of an item that is no group are legible. -/
def Item.isLegible : Item → Bool
  | declarations _ | group _ _ _ => true
  | assigns driven => driven.all fun assign =>
      assign.target.isAssignable && assign.target.isLegible && assign.value.isLegible
  | always (.posedge clock) body => clock.isLegible && Statement.allLegible body
  | always .anyChange body => Statement.allLegible body

end Multiport
