import Multiport.Design.Definition

namespace Multiport

/-- Why an operation on a design is refused. -/
inductive DesignError where
  | unknownModule (name : String)
  | unknownGenerator (module generator : String)
  | duplicateModule (name : String)
  | duplicateSchema (name : String)
  | lowering (module : String) (cause : Memory.LoweringError)
deriving DecidableEq, Repr

def DesignError.message : DesignError → String
  | unknownModule name => "unknown module `" ++ name ++ "`"
  | unknownGenerator module generator =>
      "module `" ++ module ++ "` refers to unknown generator `" ++ generator ++ "`"
  | duplicateModule name => "module `" ++ name ++ "` is already defined"
  | duplicateSchema name => "generator schema `" ++ name ++ "` is already defined"
  | lowering module cause => "failed to lower module `" ++ module ++ "`: " ++ cause.message

/-- Schemas and modules by name. -/
structure Design where
  schemas : Table Schema
  modules : Table Definition

/-- The result of an operation and the design it leaves. -/
abbrev DesignResult (α : Type) := Except DesignError α × Design

namespace Design

def empty : Design := ⟨.empty, .empty⟩

def addSchema (design : Design) (schema : Schema) : DesignResult Unit :=
  if design.schemas.contains schema.name then (.error (.duplicateSchema schema.name), design)
  else (.ok (), { design with schemas := design.schemas.insert schema.name schema })

/-- Adds a module at the end, under a new name. -/
def addModule (design : Design) (module : Definition) : DesignResult Unit :=
  if design.modules.contains module.name then (.error (.duplicateModule module.name), design)
  else (.ok (), { design with modules := design.modules.insert module.name module })

def module? (design : Design) (name : String) : Option Definition := design.modules.get? name

def schema? (design : Design) (name : String) : Option Schema := design.schemas.get? name

def definitions (design : Design) : List Definition := design.modules.values

/-- The modules that are not written out, in order. -/
def blueprints (design : Design) : List Blueprint :=
  design.definitions.filterMap Definition.generated?

/-- The schema of the generator of a module. -/
def generatorOf (design : Design) (blueprint : Blueprint) : Except DesignError Schema :=
  match design.schema? blueprint.generator with
  | some schema => .ok schema
  | none => .error (.unknownGenerator blueprint.name blueprint.generator)

/-- Puts a module at the end in place of the module of a name, and answers the latter. If another
module has the new name, the old module goes to the end instead. -/
def replaceModule (design : Design) (name : String) (module : Definition) :
    DesignResult Definition :=
  match design.modules.get? name with
  | none => (.error (.unknownModule name), design)
  | some old =>
      let others := design.modules.erase name
      if others.contains module.name then
        (.error (.duplicateModule module.name),
          { design with modules := others.insert old.name old })
      else (.ok old, { design with modules := others.insert module.name module })

def removeModule (design : Design) (name : String) : DesignResult Definition :=
  match design.modules.get? name with
  | none => (.error (.unknownModule name), design)
  | some old => (.ok old, { design with modules := design.modules.erase name })

end Design
end Multiport
