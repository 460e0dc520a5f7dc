import SchemaClasses.Model.Basic

/-!
# Generators

A generator writes classes as text. Generators are known by name in a registry, which lists them
in the order of their names; registering a name again replaces its generator.
-/

namespace SchemaClasses

/-- A way to write classes as text. -/
structure Generator where
  /-- The name it is known by. -/
  name : String
  /-- The text of some classes. -/
  render : Models → String

namespace Generator

/-- Writes classes as one JSON object, on one line or on several. -/
def json (pretty : Bool) : Generator where
  name := "json"
  render models := (if pretty then models.toJson.pretty else models.toJson.compact) ++ "\n"

/-- A class as lines of text: its name, then its properties with their types. -/
def classText (name : String) (properties : Properties) : String :=
  name ++ "\n" ++ String.join (properties.map fun (property, type) =>
    "  " ++ property ++ ": " ++ type.display ++ "\n")

/-- Writes each class as lines of text, with an empty line between two classes. -/
def text : Generator where
  name := "text"
  render models := "\n".intercalate (models.map fun (name, properties) =>
    classText name properties)

end Generator

/-- Generators in the order of their names. -/
structure Registry where
  /-- The generators, each name at most once. -/
  generators : List Generator

namespace Registry

/-- The registry without generators. -/
def empty : Registry := ⟨[]⟩

/-- Puts a generator where its name belongs, in place of one of the same name. -/
def insertSorted (generator : Generator) : List Generator → List Generator
  | [] => [generator]
  | other :: rest =>
    if generator.name < other.name then generator :: other :: rest
    else if generator.name = other.name then generator :: rest
    else other :: insertSorted generator rest

/-- Adds a generator, in place of one of the same name. -/
def register (registry : Registry) (generator : Generator) : Registry :=
  ⟨insertSorted generator registry.generators⟩

/-- The generator of some name. -/
def find? (registry : Registry) (name : String) : Option Generator :=
  registry.generators.find? fun generator => generator.name = name

/-- The names of all generators, in order. -/
def names (registry : Registry) : List String :=
  registry.generators.map Generator.name

/-- The registry of the generators that come with the library. -/
def builtin (pretty : Bool) : Registry :=
  (empty.register (.json pretty)).register .text

end Registry

end SchemaClasses
