import SchemaClasses.Merge

/-!
# Flattened schemas

A document is flattened into a table of its object schemas. Each is listed under its own place in
the document, and whatever used to hold it holds a reference to that place. `FlattenError` says
why a document cannot be flattened, `FlattenState` is what a walk through it has found so far, and
`FlattenM` is a computation that extends it.
-/

namespace SchemaClasses

/-- The flattened object schemas by their places, in the order in which they were completed. -/
abbrev FlatSchemas := List (SchemaPath × Entries)

/-- A rule of flattening that a schema breaks. -/
inductive Violation where
  /-- The document is not an object. -/
  | notObjectSchema
  /-- A value stands where a schema is expected. -/
  | notSchema (kind : String)
  /-- Array items beyond the declared ones are allowed. -/
  | additionalItems
  /-- Array items are declared one by one. -/
  | tupleItems
  /-- Properties beyond the declared ones are allowed. -/
  | additionalProperties
  /-- Properties are declared both by name and by pattern. -/
  | exclusiveMembers
  /-- A table of schemas is not an object. -/
  | nonObjectMembers (keyword : String)
  /-- A list of schemas is not an array. -/
  | nonArrayCombiner (keyword : String)
  deriving DecidableEq, Repr

/-- Why a reference inside a document leads nowhere. -/
inductive DeadEnd where
  /-- Its text is no pointer. -/
  | malformed (error : PointerError)
  /-- There is no value at the place it names. -/
  | noSchema
  deriving DecidableEq, Repr

/-- Why a document cannot be flattened. -/
inductive FlattenError where
  /-- The schema at a place breaks a rule. -/
  | violation (path : SchemaPath) (rule : Violation)
  /-- Schemas that have to be merged disagree. -/
  | conflict (conflict : Conflict)
  /-- The schema at a place contains itself, by way of the places of the chain. -/
  | circular (path : SchemaPath) (chain : List SchemaPath)
  /-- A reference leads nowhere. -/
  | invalidRef (pointer : String) (reason : DeadEnd)
  /-- The walk went deeper than its limit. -/
  | tooDeep
  deriving Repr

/-- The wording of a rule that is broken. -/
def Violation.message : Violation → String
  | notObjectSchema => "is not an object schema"
  | notSchema kind => "holds a " ++ kind ++ " instead of a schema"
  | additionalItems => "has 'additionalItems'"
  | tupleItems => "has tuple-typed 'items'"
  | additionalProperties => "has 'additionalProperties'"
  | exclusiveMembers => "has mutually exclusive 'properties' and 'patternProperties'"
  | nonObjectMembers keyword => "has non-object '" ++ keyword ++ "'"
  | nonArrayCombiner keyword => "has non-array '" ++ keyword ++ "'"

/-- The wording of a disagreement. -/
def Conflict.message (conflict : Conflict) : String :=
  "declared multiple values for '" ++ conflict.keyword ++ "': found '" ++
    conflict.target.compact ++ "' and '" ++ conflict.source.compact ++ "'"

/-- The wording of why a reference leads nowhere. -/
def DeadEnd.message : DeadEnd → String
  | malformed error => error.message
  | noSchema => "no schema at this location"

/-- Pointers with arrows between them. -/
def chainText (pointers : List String) : String :=
  " -> ".intercalate pointers

/-- The wording of the error. -/
def FlattenError.message : FlattenError → String
  | violation path rule => "object at '" ++ path.toPointer ++ "' " ++ rule.message
  | conflict c => "object at '" ++ c.path.toPointer ++ "' " ++ c.message
  | circular path chain =>
    "circular reference at '" ++ path.toPointer ++ "': " ++
      chainText (chain.map SchemaPath.toPointer)
  | invalidRef pointer reason => "invalid ref '" ++ pointer ++ "': " ++ reason.message
  | tooDeep => "schema is nested too deeply"

/-- What a walk through a document has found so far. -/
structure FlattenState where
  /-- The schemas that are complete. -/
  schemas : FlatSchemas := []
  /-- The places of the schemas that are being walked, outermost first. -/
  inProgress : List SchemaPath := []

/-- A computation that extends what a walk has found, or fails. -/
abbrev FlattenM := StateT FlattenState (Except FlattenError)

/-- What became of one schema. -/
inductive Walked where
  /-- It is listed under this place. -/
  | canonical (path : SchemaPath)
  /-- It stays where it is. -/
  | inPlace (schema : Json)
  deriving Repr

/-- What the holder of a schema holds after the walk. -/
def Walked.toJson : Walked → Json
  | canonical path => (Reference.canonical path).toSchema
  | inPlace schema => schema

/-- A flattened table as an object whose keys are pointers. -/
def FlatSchemas.toJson (schemas : FlatSchemas) : Json :=
  .obj (Assoc.ofList (schemas.map fun entry => (entry.1.toPointer, .obj entry.2)))

end SchemaClasses
