import Multiport.Draft.Block
import Multiport.Draft.Error
import Multiport.Draft.FreshName
import Multiport.Draft.Scope
import Multiport.Draft.Signal
import Multiport.Netlist.Module

/-! Modules under construction. Items are appended where the draft stands, at the top or in the
section opened last; a section that received nothing leaves no trace. Names of declarations are
made fresh, so that no two declarations and no declaration and port share one. -/
namespace Multiport

/-- A section not closed yet. -/
structure OpenSection where
  title : String
  items : Array Item

/-- A module under construction. Sections are held innermost first. -/
structure ModuleDraft where
  name : String
  ports : List Port
  finished : Array Item
  sections : List OpenSection
  names : List String

namespace ModuleDraft

/-- A module of which only the ports are known; their names are taken. -/
def start (name : String) (ports : List Port) : ModuleDraft :=
  ⟨name, ports, #[], [], ports.map Port.name⟩

/-- The input ports as signals, in order. -/
def inputs (draft : ModuleDraft) : List Signal :=
  (draft.ports.filter Port.isInput).map fun port => .ident port.name port.width

def outputs (draft : ModuleDraft) : List Port := draft.ports.filter fun port => !port.isInput

/-- Appends an item where the draft stands. -/
def push (draft : ModuleDraft) (item : Item) : ModuleDraft :=
  match draft.sections with
  | [] => { draft with finished := draft.finished.push item }
  | inner :: outer =>
      { draft with sections := { inner with items := inner.items.push item } :: outer }

/-- Makes a name in a scope, and takes it. -/
def take (draft : ModuleDraft) (scope : Scope) (name : String) : String × ModuleDraft :=
  let fresh := freshName draft.names (scope.qualify name)
  (fresh, { draft with names := fresh :: draft.names })

/-- Opens a section; what follows belongs to it until it is left. -/
def enterSection (draft : ModuleDraft) (title : String) : ModuleDraft :=
  { draft with sections := ⟨title, #[]⟩ :: draft.sections }

/-- Leaves the section opened last, which becomes one group of the section around it. -/
def leaveSection (draft : ModuleDraft) : Except Breach ModuleDraft :=
  match draft.sections with
  | [] => .error .leaveWithoutSection
  | inner :: outer =>
      let around := { draft with sections := outer }
      if inner.items.isEmpty then .ok around
      else .ok (around.push (.group inner.title (some ("End " ++ inner.title)) inner.items.toList))

/-- Declares an array of `depth` words of `width` bits. -/
def declareStorage (draft : ModuleDraft) (scope : Scope) (name : String) (width depth : Nat) :
    Storage × ModuleDraft :=
  let (fresh, draft) := draft.take scope name
  (⟨fresh, width, depth⟩, draft.push (.declarations [.array width depth fresh]))

def declareReg (draft : ModuleDraft) (scope : Scope) (name : String) (width : Nat) :
    Signal × ModuleDraft :=
  let (fresh, draft) := draft.take scope name
  (.ident fresh width, draft.push (.declarations [.reg width fresh]))

def declareNet (draft : ModuleDraft) (scope : Scope) (name : String) (value : Expr) (width : Nat) :
    Signal × ModuleDraft :=
  let (fresh, draft) := draft.take scope name
  (.ident fresh width,
    (draft.push (.declarations [.net width fresh])).push (.assigns [⟨.ident fresh, value⟩]))

/-- Adds a block that runs when a clock rises. -/
def clocked (draft : ModuleDraft) (clock : Signal) (body : List Statement) : ModuleDraft :=
  draft.push (.always (.posedge clock.expr) body)

/-- Adds a block that runs whenever something it reads changes. -/
def combinational (draft : ModuleDraft) (body : List Statement) : ModuleDraft :=
  draft.push (.always .anyChange body)

/-- Assigns values to ports of the same widths, pair by pair. -/
def assignPorts : List (Port × Signal) → Except DraftError (List Assign)
  | [] => .ok []
  | (port, value) :: rest => do
      if port.width ≠ value.width then
        throw (.outputWidth port.name port.width value.width)
      return ⟨.ident port.name, value.expr⟩ :: (← assignPorts rest)

/-- Drives the output ports, in order, with as many values. -/
def driveOutputs (draft : ModuleDraft) (values : List Signal) : Except DraftError ModuleDraft := do
  let outputs := draft.outputs
  if outputs.length ≠ values.length then
    throw (.outputCount outputs.length values.length)
  let driven ← assignPorts (outputs.zip values)
  return if driven.isEmpty then draft else draft.push (.assigns driven)

/-- The module, once every section is left. -/
def finish (draft : ModuleDraft) : Except Breach Module :=
  if draft.sections.isEmpty then .ok ⟨draft.name, draft.ports, draft.finished.toList⟩
  else .error (.openSections draft.sections.length)

theorem leaveSection_eq_error_iff {draft : ModuleDraft} {breach : Breach} :
    draft.leaveSection = .error breach ↔ draft.sections = [] ∧ breach = .leaveWithoutSection := by
  unfold leaveSection
  split
  · rename_i closed
    simp [closed, eq_comm]
  · rename_i inner outer opened
    rw [opened]
    split <;> simp

theorem finish_eq_error_iff {draft : ModuleDraft} {breach : Breach} :
    draft.finish = .error breach ↔
      draft.sections ≠ [] ∧ breach = .openSections draft.sections.length := by
  unfold finish
  cases draft.sections with
  | nil => simp
  | cons inner outer => simp [eq_comm]

end ModuleDraft
end Multiport
