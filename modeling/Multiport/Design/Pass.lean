import Multiport.Design.Database
import Multiport.Text.Quoted

/-! The pass that lowers the memories of a design. A generated module is lowered if its generator
has the tag of the pass and the filter accepts it. All of them are lowered before any takes its
place, so a failure leaves the design as it was. -/
namespace Multiport

open Memory (LoweringOptions)

/-- A pass over designs. -/
structure LoweringPass where
  options : LoweringOptions
  filter? : Option (Blueprint → Bool)

namespace LoweringPass

def standard : LoweringPass := ⟨.standard, none⟩

/-- Restricts the pass to what a filter accepts. -/
def withFilter (pass : LoweringPass) (filter : Blueprint → Bool) : LoweringPass :=
  { pass with filter? := some filter }

/-- Whether the pass lowers a module with a schema. -/
def selects (pass : LoweringPass) (schema : Schema) (blueprint : Blueprint) : Bool :=
  schema.tag == pass.options.tag && (pass.filter?.map fun filter => filter blueprint).getD true

/-- The lowered form of a memory, from its own description alone. -/
def lowerMemory (options : LoweringOptions) (blueprint : Blueprint) :
    Except Memory.LoweringError Module := do
  let descriptor ← Memory.Descriptor.ofAttributes blueprint.name blueprint.attributes
  Memory.lower .top blueprint.name blueprint.ports descriptor options

/-- Lowers a module of a design if the pass selects it. The generator must be known even if not. -/
def lowerModule (pass : LoweringPass) (design : Design) (blueprint : Blueprint) :
    Except DesignError (Option Module) := do
  let schema ← design.generatorOf blueprint
  if pass.selects schema blueprint then
    match lowerMemory pass.options blueprint with
    | .ok lowered => return some lowered
    | .error cause => throw (.lowering blueprint.name cause)
  else
    return none

/-- Lowers the selected modules of a list, up to the first failure. -/
def lowerAll (pass : LoweringPass) (design : Design) :
    List Blueprint → Except DesignError (List Module)
  | [] => .ok []
  | blueprint :: rest => do
      let lowered ← pass.lowerModule design blueprint
      return lowered.toList ++ (← pass.lowerAll design rest)

/-- Puts modules in the places of those of the same names, up to the first failure. -/
def replaceAll : List Module → Design → DesignResult (List String)
  | [], design => (.ok [], design)
  | module :: rest, design =>
      match design.replaceModule module.name (.concrete module) with
      | (.error error, design) => (.error error, design)
      | (.ok _, design) =>
          match replaceAll rest design with
          | (.ok names, design) => (.ok (module.name :: names), design)
          | failed => failed

/-- Lowers the selected modules of a design. Answers their names, in the order of the design. -/
def run (pass : LoweringPass) (design : Design) : DesignResult (List String) :=
  match pass.lowerAll design design.blueprints with
  | .ok lowered => replaceAll lowered design
  | .error error => (.error error, design)

/-- The settings of a pass as text; of a filter it says only whether there is one. -/
def describe (pass : LoweringPass) : String :=
  "MemSimPass \x7b options: MemSimOptions \x7b descriptor_tag: " ++ Text.quoted pass.options.tag ++
    ", storage_name: " ++ Text.quoted pass.options.storageName ++ " \x7d, filter: " ++
    toString pass.filter?.isSome ++ " \x7d"

end LoweringPass
end Multiport
