import SchemaClasses.Flatten.Basic

/-!
# Class models

A class has a name and properties, each with a type. Types are built from the primitive types of
schemas and the classes themselves by lists, sets and dictionaries; `multiple` stands for a choice
between several alternatives, which are kept as they are named in the schema.
-/

namespace SchemaClasses

/-- A primitive type of schemas, or `undefined` for values of any kind. -/
inductive Primitive where
  /-- Texts. -/
  | string
  /-- Whole numbers. -/
  | integer
  /-- Numbers. -/
  | number
  /-- Truth values. -/
  | boolean
  /-- The value `null` alone. -/
  | null
  /-- Values of any kind. -/
  | undefined
  deriving DecidableEq, Repr

namespace Primitive

/-- The primitive type that a schema names. -/
def ofName? (name : String) : Option Primitive :=
  if name = "string" then some string
  else if name = "integer" then some integer
  else if name = "number" then some number
  else if name = "boolean" then some boolean
  else if name = "null" then some null
  else none

/-- The name of a primitive type. -/
def name : Primitive → String
  | string => "string"
  | integer => "integer"
  | number => "number"
  | boolean => "boolean"
  | null => "null"
  | undefined => "undefined"

end Primitive

/-- The type of a property. -/
inductive PropertyType where
  /-- A primitive type, narrowed by a format. -/
  | primitive (kind : Primitive) (format : String)
  /-- A class. -/
  | model (className : String)
  /-- A list of elements. -/
  | list (element : PropertyType)
  /-- A list without order and repetition. -/
  | set (element : PropertyType)
  /-- A dictionary from texts to values. -/
  | dict (value : PropertyType)
  /-- One of several alternatives. -/
  | multiple (candidates : List String)
  deriving DecidableEq, Repr

namespace PropertyType

/-- The format of a primitive type that declares none. -/
def defaultFormat : String := "default"

/-- Values of any kind. -/
def anything : PropertyType :=
  primitive .undefined defaultFormat

/-- The type as it is shown to readers. -/
def display : PropertyType → String
  | primitive kind format =>
    if format = defaultFormat then kind.name else kind.name ++ "(" ++ format ++ ")"
  | model className => className
  | list element => "List<" ++ element.display ++ ">"
  | set element => "Set<" ++ element.display ++ ">"
  | dict value => "Dict<" ++ value.display ++ ">"
  | multiple candidates => "Multiple<" ++ "|".intercalate candidates ++ ">"

/-- The type as a JSON object that says first how it is built. -/
def toJson : PropertyType → Json
  | primitive kind format =>
    .obj [("container", .str "primitive"), ("kind", .str kind.name), ("format", .str format)]
  | model className => .obj [("container", .str "model"), ("class_name", .str className)]
  | list element => .obj [("container", .str "list"), ("element", element.toJson)]
  | set element => .obj [("container", .str "set"), ("element", element.toJson)]
  | dict value => .obj [("container", .str "dict"), ("value", value.toJson)]
  | multiple candidates =>
    .obj [("container", .str "multiple"), ("candidates", .arr (candidates.map Json.str))]

end PropertyType

/-- The properties of a class, in order. -/
abbrev Properties := List (String × PropertyType)

/-- Classes by name, in order. -/
abbrev Models := List (String × Properties)

/-- Classes as a JSON object of objects. -/
def Models.toJson (models : Models) : Json :=
  .obj (models.map fun (name, properties) =>
    (name, .obj (properties.map fun (property, type) => (property, type.toJson))))

/-- Why classes cannot be made of flattened schemas. -/
inductive ModelError where
  /-- No segment of the place of a schema yields a class name. -/
  | noClassName (path : SchemaPath)
  /-- A reference names no flattened schema. -/
  | unknownRef (reference : String)
  /-- A flattened schema has no table of properties. -/
  | noProperties (path : SchemaPath)
  /-- A type is neither a primitive type nor an object or array. -/
  | unknownType (path : SchemaPath) (typeName : String)
  deriving DecidableEq, Repr

/-- The wording of the error. -/
def ModelError.message : ModelError → String
  | noClassName path =>
    "could not create a valid class from schema at '" ++ path.toPointer ++ "'"
  | unknownRef reference =>
    "ref '" ++ reference ++ "' does not point at a flattened schema"
  | noProperties path => "flattened schema at '" ++ path.toPointer ++ "' has no properties"
  | unknownType path typeName =>
    "unknown type '" ++ typeName ++ "' at '" ++ path.toPointer ++ "'"

end SchemaClasses
