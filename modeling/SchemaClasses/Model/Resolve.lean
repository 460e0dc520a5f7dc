import SchemaClasses.Model.ClassName

/-!
# From flattened schemas to classes

Each flattened schema becomes a class, and each of its properties gets a type. A reference is the
class of the schema that it names. Any other schema has the type that it declares, where no type
means an object; a list of several types is a choice between them, and a list of one is that type,
or that class if it is a pointer.

Flattened objects are dictionaries: those with properties have become references. The values of a
dictionary have the type of its only pattern; with no pattern, or with several, they may be
anything.
-/

namespace SchemaClasses

/-- What a schema declares as its type. -/
inductive DeclaredType where
  /-- One type. -/
  | single (name : String)
  /-- A reference in place of a type. -/
  | reference (pointer : String)
  /-- A choice between several types. -/
  | choice (names : List String)
  deriving DecidableEq, Repr

namespace DeclaredType

/-- The different texts of a list in order of their first occurrence, or the first value in it
that is no text. -/
def distinctTexts : List Json → List String → Except Json (List String)
  | [], found => .ok found
  | .str name :: rest, found =>
    distinctTexts rest (if name ∈ found then found else found ++ [name])
  | other :: _, _ => .error other

/-- The type that a schema declares. -/
def ofSchema (schema : Entries) (path : SchemaPath) : Except ModelError DeclaredType :=
  match Assoc.find? schema typeKey with
  | none => .ok (single "object")
  | some (.str name) => .ok (single name)
  | some (.arr types) =>
    match distinctTexts types [] with
    | .error other => .error (.unknownType path other.compact)
    | .ok [] => .ok (single "object")
    | .ok [name] => .ok (if name.toList.head? = some '#' then reference name else single name)
    | .ok names => .ok (choice names)
  | some other => .error (.unknownType path other.compact)

end DeclaredType

namespace Resolve

/-- The class of the flattened schema that a pointer names. -/
def modelOfPointer (names : ClassName.Table) (pointer : String) :
    Except ModelError PropertyType :=
  match SchemaPath.ofPointer pointer with
  | .error _ => .error (.unknownRef pointer)
  | .ok path =>
    match Assoc.find? names path with
    | some name => .ok (.model name)
    | none => .error (.unknownRef pointer)

/-- The class that the value of a `$ref` names. -/
def modelOfRef (names : ClassName.Table) : Json → Except ModelError PropertyType
  | .str pointer => modelOfPointer names pointer
  | other => .error (.unknownRef other.compact)

/-- A switch of a schema, with its value if it is not set to a truth value. -/
def switch (schema : Entries) (keyword : String) (default : Bool) : Bool :=
  ((Assoc.find? schema keyword).bind Json.bool?).getD default

/-- The type of an array schema with elements of some type: a set if its items are unique and
have no order, a list otherwise. -/
def arrayOf (schema : Entries) (element : PropertyType) : PropertyType :=
  if switch schema "uniqueItems" false && !switch schema "insertionOrder" true then .set element
  else .list element

/-- The type of a schema that names a primitive type. -/
def primitiveOf (schema : Entries) (path : SchemaPath) (name : String) :
    Except ModelError PropertyType :=
  match Primitive.ofName? name with
  | some kind =>
    .ok (.primitive kind
      (((Assoc.find? schema "format").bind Json.text?).getD PropertyType.defaultFormat))
  | none => .error (.unknownType path name)

variable (names : ClassName.Table)

mutual

/-- The type of a flattened property schema at its place. Anything but an object allows all
values. -/
def typeOf (path : SchemaPath) : Json → Except ModelError PropertyType
  | .obj schema =>
    match Assoc.find? schema refKey with
    | some ref => modelOfRef names ref
    | none => do
      match ← DeclaredType.ofSchema schema path with
      | .reference pointer => modelOfPointer names pointer
      | .choice candidates => return .multiple candidates
      | .single name =>
        if name = "array" then return arrayOf schema (← itemsType path schema)
        else if name = "object" then return .dict (← valuesType path schema)
        else primitiveOf schema path name
  | _ => .ok .anything

/-- The type of the schema under `items`, if there is one. -/
def itemsType (path : SchemaPath) : Entries → Except ModelError PropertyType
  | [] => .ok .anything
  | (key, value) :: rest =>
    if key = "items" then typeOf (path.child "items") value else itemsType path rest

/-- The type of the schema of the only pattern under `patternProperties`, if there is just one. -/
def valuesType (path : SchemaPath) : Entries → Except ModelError PropertyType
  | [] => .ok .anything
  | (key, value) :: rest =>
    if key = "patternProperties" then patternType path value else valuesType path rest

/-- The type of the schema of the only pattern of a table of patterns, if there is just one. -/
def patternType (path : SchemaPath) : Json → Except ModelError PropertyType
  | .obj [(pattern, value)] => typeOf (path ++ ["patternProperties", pattern]) value
  | _ => .ok .anything

end

/-- The types of some properties of the class at a place, in order. -/
def propertiesOf (path : SchemaPath) : Entries → Except ModelError Properties
  | [] => .ok []
  | (name, schema) :: rest => do
    let type ← typeOf names (path ++ ["properties", name]) schema
    let others ← propertiesOf path rest
    return (name, type) :: others

/-- The class of a flattened schema. -/
def classOf (schemas : FlatSchemas) (path : SchemaPath) : Except ModelError Properties :=
  match ((Assoc.find? schemas path).bind fun schema => Assoc.find? schema "properties") with
  | some (.obj properties) => propertiesOf names path properties
  | _ => .error (.noProperties path)

/-- The classes of the schemas at some places, in order. -/
def classesOf (schemas : FlatSchemas) : ClassName.Table → Except ModelError Models
  | [] => .ok []
  | (path, name) :: rest => do
    let properties ← classOf names schemas path
    let others ← classesOf schemas rest
    return (name, properties) :: others

end Resolve

/-- Flattened schemas with the names of their classes. -/
structure Resolver where
  /-- The flattened schemas. -/
  schemas : FlatSchemas
  /-- The names of their classes. -/
  names : ClassName.Table

namespace Resolver

/-- Names the classes of flattened schemas. -/
def ofSchemas (schemas : FlatSchemas) (rootName : String) : Except ModelError Resolver := do
  let names ← ClassName.table schemas rootName
  return ⟨schemas, names⟩

/-- The name of the class of the schema at a place. -/
def className? (resolver : Resolver) (path : SchemaPath) : Option String :=
  Assoc.find? resolver.names path

/-- The type of a flattened property schema. -/
def typeOf (resolver : Resolver) (schema : Json) (path : SchemaPath) :
    Except ModelError PropertyType :=
  Resolve.typeOf resolver.names path schema

/-- All classes, in the order of their names in the table. -/
def models (resolver : Resolver) : Except ModelError Models :=
  Resolve.classesOf resolver.names resolver.schemas resolver.names

end Resolver

/-- The classes of flattened schemas. -/
def resolve (schemas : FlatSchemas) (rootName : String) : Except ModelError Models := do
  (← Resolver.ofSchemas schemas rootName).models

end SchemaClasses
