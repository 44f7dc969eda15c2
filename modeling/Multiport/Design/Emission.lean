import Multiport.Design.Database

/-! The source files of a design: one for each module that is written out, named after it. -/
namespace Multiport

/-- A file by name and content. -/
structure SourceFile where
  name : String
  content : String
deriving DecidableEq, Repr

/-- Why the files of a design cannot be written. -/
inductive EmissionError where
  | cannotCreate (file : String)
  | breach (cause : Breach)
deriving DecidableEq, Repr

/-- The longest name of a file, in bytes. -/
def maxFileName : Nat := 255

def maxPath : Nat := 4095

/-- Where the file of a path lies: in the directory that the path starts from, or elsewhere. -/
inductive Place where
  | inside (file : List Char)
  | elsewhere
deriving DecidableEq, Repr

/-- Where a path leads from an empty directory. It leads nowhere if it passes through a directory
other than the empty one, those above it and the topmost, if the path or the name of the file is too
long, or if the path holds NUL. -/
def placeOfPath? (path : List Char) : Option Place :=
  let names := path.splitOnP (· == '/')
  let directories := names.dropLast
  let file := names.getLastD []
  let above := ['.', '.']
  let known := directories.all fun name => name.isEmpty || name == ['.'] || name == above
  let fits := (String.ofList file).utf8ByteSize ≤ maxFileName &&
    (String.ofList path).utf8ByteSize ≤ maxPath
  if known && fits && !path.contains '\x00' then
    let leaves := path.head? == some '/' || directories.contains above
    some (if leaves then .elsewhere else .inside file)
  else none

example : placeOfPath? ".//./a".toList = some (.inside ['a']) := by decide +kernel

example : placeOfPath? "../a".toList = some .elsewhere ∧ placeOfPath? "b/a".toList = none := by
  decide +kernel

/-- The file of a module, if it lies in the directory. -/
def Module.toFile? (module : Module) : Except EmissionError (Option SourceFile) :=
  match placeOfPath? (module.name ++ ".v").toList with
  | none => .error (.cannotCreate (module.name ++ ".v"))
  | some place =>
      match module.render, place with
      | .error cause, _ => .error (.breach cause)
      | .ok text, .inside file => .ok (some ⟨String.ofList file, text ++ "\n"⟩)
      | .ok _, .elsewhere => .ok none

namespace Design

/-- The files in the directory that the modules are written out to, in order of their names. A later
file takes the place of an earlier one of the same name. -/
def files (design : Design) : Except EmissionError (List SourceFile) := do
  let files ← (design.definitions.filterMap Definition.concrete?).mapM Module.toFile?
  let directory := Table.ofList ((files.filterMap id).map fun file => (file.name, file.content))
  return (directory.entries.map fun entry => ⟨entry.1, entry.2⟩).mergeSort
    fun first second => first.name ≤ second.name

end Design
end Multiport
