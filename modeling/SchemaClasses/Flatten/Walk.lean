import SchemaClasses.Flatten.Basic

/-!
# Flattening a document

`flatten` walks a document from its root. An object schema with `properties` is listed under its
place, a schema of any other kind stays where it is, and a reference is followed to its target,
which is walked under its own place. `oneOf`, `anyOf` and `allOf` of an object schema are folded
into it: the members are walked first, and what becomes of each is merged into the schema.

The steps of the walk are defined over the walk of the schemas below, `Walker`, and `walk` ties
the knot up to a depth. The places that are being walked are kept apart, and one that is met again
is a cycle, so the depth of a walk without combiners is bounded by the number of places; `flatten`
allows for that many.
-/

namespace SchemaClasses

namespace Flatten

/-- The walk of one schema at its place. -/
abbrev Walker := Json → SchemaPath → FlattenM Walked

/-- The keywords that combine schemas, in the order in which they are folded. -/
def combiners : List String := ["oneOf", "anyOf", "allOf"]

/-- How the walk treats a schema without reference. -/
inductive Shape where
  /-- As an object, which may be listed. -/
  | object
  /-- As an array, whose items are walked. -/
  | array
  /-- As it is. -/
  | other
  deriving DecidableEq, Repr

/-- The shape that a schema declares; without a type it is an object. -/
def Shape.ofSchema (schema : Entries) : Shape :=
  match Assoc.find? schema typeKey with
  | none => object
  | some (.str name) =>
    if name = "object" then object else if name = "array" then array else other
  | some _ => other

/-- Whether a keyword is present and switched on. -/
def isOn (schema : Entries) (keyword : String) : Bool :=
  match Assoc.find? schema keyword with
  | some value => value.isTruthy
  | none => false

/-- The error for a place that is met again: the chain leads from that place to itself. -/
def circular (inProgress : List SchemaPath) (path : SchemaPath) : FlattenError :=
  .circular path (inProgress.dropWhile (fun p => p ≠ path) ++ [path])

/-- The schema that a reference names, and its place. A complete schema is taken from the table,
any other from the document. -/
def findSchema (document : Json) (schemas : FlatSchemas) (reference : Reference) :
    Except FlattenError (Json × SchemaPath) := do
  let path ← match reference with
    | .unresolved pointer =>
      match SchemaPath.ofPointer pointer with
      | .ok path => pure path
      | .error error => throw (.invalidRef pointer (.malformed error))
    | .canonical path => pure path
  match Assoc.find? schemas path with
  | some schema => return (.obj schema, path)
  | none =>
    match document.at? path with
    | some schema => return (schema, path)
    | none => throw (.invalidRef reference.toPointer .noSchema)

variable (document : Json) (walk : Walker)

/-- Follows a reference and walks its target under the place of the target. -/
def followRef (reference : Reference) : FlattenM Walked := do
  let (target, path) ← findSchema document (← get).schemas reference
  walk target path

/-- Walks the items of an array schema. -/
def flattenArray (schema : Entries) (path : SchemaPath) : FlattenM Walked := do
  if isOn schema "additionalItems" then throw (.violation path .additionalItems)
  match Assoc.find? schema "items" with
  | none => return .inPlace (.obj schema)
  | some (.arr _) => throw (.violation path .tupleItems)
  | some items =>
    let walked ← walk items (path.child "items")
    return .inPlace (.obj (Assoc.insert schema "items" walked.toJson))

/-- Walks the schemas of a table of members, in order. -/
def flattenEntries (path : SchemaPath) (keyword : String) : Entries → FlattenM Entries
  | [] => return []
  | (name, member) :: rest => do
    let walked ← walk member (path ++ [keyword, name])
    let flat ← flattenEntries path keyword rest
    return (name, walked.toJson) :: flat

/-- Walks the schemas under `properties` or `patternProperties`. -/
def flattenMembers (path : SchemaPath) (keyword : String) (members : Json) : FlattenM Json := do
  match members with
  | .obj entries => return .obj (← flattenEntries walk path keyword entries)
  | _ => throw (.violation path (.nonObjectMembers keyword))

/-- What a member of a combiner contributes to the schema around it. An entry that only this
member has brought about leaves the table again and its content is used; one that was there
before stays and its content is copied; an entry at another place is referred to. -/
def contribution (memberPath : SchemaPath) (shared : Bool) (walked : Walked) : FlattenM Json := do
  match walked with
  | .inPlace schema => return schema
  | .canonical target =>
    if target ≠ memberPath then return (Reference.canonical target).toSchema
    else if shared then
      let (schema, _) ← findSchema document (← get).schemas (.canonical target)
      return schema
    else
      let state ← get
      set { state with schemas := Assoc.erase state.schemas target }
      return ((Assoc.find? state.schemas target).map Json.obj).getD .null

/-- Folds one member of a combiner into the schema around it. -/
def foldMember (path : SchemaPath) (combiner : String) (schema : Entries) (index : Nat)
    (member : Json) : FlattenM Entries := do
  let memberPath := path ++ [combiner, SchemaPath.ofIndex index]
  let shared := Assoc.contains (← get).schemas memberPath
  let walked ← walk member memberPath
  match ← contribution document memberPath shared walked with
  | .obj source =>
    let merged := merge schema source path
    match merged.conflict with
    | none => return merged.value
    | some conflict => throw (.conflict conflict)
  | _ => return schema

/-- Folds the members of a combiner from some position on. -/
def foldMembers (path : SchemaPath) (combiner : String) :
    Entries → Nat → List Json → FlattenM Entries
  | schema, _, [] => return schema
  | schema, index, member :: rest => do
    let folded ← foldMember document walk path combiner schema index member
    foldMembers path combiner folded (index + 1) rest

/-- Folds one combiner into the schema that has it. -/
def foldCombiner (path : SchemaPath) (schema : Entries) (combiner : String) :
    FlattenM Entries := do
  match Assoc.find? schema combiner with
  | none => return schema
  | some (.arr members) =>
    foldMembers document walk path combiner (Assoc.swapErase schema combiner) 0 members
  | some _ => throw (.violation path (.nonArrayCombiner combiner))

/-- Folds all combiners of an object schema, then walks its members. With `properties` it is
listed under its place. -/
def flattenObject (schema : Entries) (path : SchemaPath) : FlattenM Walked := do
  let schema ← combiners.foldlM (foldCombiner document walk path) schema
  if isOn schema "additionalProperties" then throw (.violation path .additionalProperties)
  match Assoc.find? schema "properties", Assoc.find? schema "patternProperties" with
  | some _, some _ => throw (.violation path .exclusiveMembers)
  | some members, none =>
    let flat ← flattenMembers walk path "properties" members
    modify fun state =>
      { state with
        schemas := Assoc.insert state.schemas path (Assoc.insert schema "properties" flat) }
    return .canonical path
  | none, some members =>
    let flat ← flattenMembers walk path "patternProperties" members
    return .inPlace (.obj (Assoc.insert schema "patternProperties" flat))
  | none, none => return .inPlace (.obj schema)

/-- Walks an object value as its reference or its type says. -/
def flattenSchema (schema : Entries) (path : SchemaPath) : FlattenM Walked :=
  match Reference.ofSchema? schema with
  | some reference => followRef document walk reference
  | none =>
    match Shape.ofSchema schema with
    | .object => flattenObject document walk schema path
    | .array => flattenArray walk schema path
    | .other => return .inPlace (.obj schema)

/-- One step of the walk: refuses a place that is being walked, takes over one that is complete,
and walks any other object while its place counts as being walked. -/
def visit (schema : Json) (path : SchemaPath) : FlattenM Walked := do
  let state ← get
  if path ∈ state.inProgress then throw (circular state.inProgress path)
  else if Assoc.contains state.schemas path then return .canonical path
  else
    match schema with
    | .obj entries =>
      set { state with inProgress := state.inProgress ++ [path] }
      let walked ← flattenSchema document walk entries path
      modify fun state => { state with inProgress := state.inProgress.erase path }
      return walked
    | .bool value => return .inPlace (.bool value)
    | other => throw (.violation path (.notSchema other.kindName))

end Flatten

/-- The walk of a document, down to a depth. -/
def Flatten.walk (document : Json) : Nat → Flatten.Walker
  | 0 => fun _ _ => throw .tooDeep
  | depth + 1 => Flatten.visit document (Flatten.walk document depth)

/-- The flattened schemas of a document, if no walk goes below a depth. -/
def flattenWithin (depth : Nat) (document : Json) : Except FlattenError FlatSchemas :=
  if document.isObject then do
    let (_, state) ← Flatten.walk document depth document .root {}
    return state.schemas
  else .error (.violation .root .notObjectSchema)

/-- A depth that no walk of a document without combiners goes below: each place that is being
walked extends the target of one of the references, or the root, by a path through the document. -/
def depthBound (document : Json) : Nat :=
  (document.size + 2) * (document.size + 2)

/-- The flattened schemas of a document. -/
def flatten (document : Json) : Except FlattenError FlatSchemas :=
  flattenWithin (depthBound document) document

end SchemaClasses
