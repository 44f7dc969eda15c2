import Multiport.Memory.Attributes
import Multiport.Memory.Lowering

namespace Multiport

/-- A generator that modules can refer to: what kind of module it makes, and which attributes a
module has to give it. -/
structure Schema where
  name : String
  tag : String
  required : List String
deriving DecidableEq, Repr

/-- A module that a generator is to make, described by attributes. -/
structure Blueprint where
  name : String
  ports : List Port
  generator : String
  attributes : Attributes
deriving DecidableEq

/-- A module of a design. -/
inductive Definition where
  | generated (blueprint : Blueprint)
  | concrete (module : Module)

/-- The schema of the generators of memories. -/
def Schema.memory (name : String) : Schema :=
  ⟨name, Memory.memoryTag, Memory.Parameter.all.map Memory.Parameter.name⟩

namespace Blueprint

/-- The module with one attribute more, or with another value for it, at the end. -/
def withAttribute (blueprint : Blueprint) (name : String) (value : Attribute) : Blueprint :=
  { blueprint with attributes := blueprint.attributes.insert name value }

end Blueprint

/-- The module that a descriptor describes, for a generator of memories to make. -/
def Memory.Descriptor.toBlueprint (descriptor : Memory.Descriptor) (name generator : String) :
    Blueprint :=
  ⟨name, descriptor.ports, generator, descriptor.toAttributes⟩

namespace Definition

def name : Definition → String
  | generated blueprint => blueprint.name
  | concrete module => module.name

def ports : Definition → List Port
  | generated blueprint => blueprint.ports
  | concrete module => module.ports

/-- The description, if the module is not written out. -/
def generated? : Definition → Option Blueprint
  | generated blueprint => some blueprint
  | concrete _ => none

def concrete? : Definition → Option Module
  | generated _ => none
  | concrete module => some module

end Definition
end Multiport
