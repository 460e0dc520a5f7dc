import SchemaClasses.Flatten.Walk
import SchemaClasses.Inline.Combine
import SchemaClasses.Model.Resolve

/-!
# From a document to classes

A document is inlined, unless that is switched off, then flattened, and its flattened schemas are
made into classes. The first step that fails ends the run.
-/

namespace SchemaClasses

/-- Why a document yields no classes. -/
inductive SchemaError where
  /-- The document cannot be loaded. -/
  | load (error : LoadError)
  /-- Its remote references cannot be inlined. -/
  | remote (error : InlineError)
  /-- It cannot be flattened. -/
  | flatten (error : FlattenError)
  /-- Its schemas cannot be made into classes. -/
  | model (error : ModelError)

namespace SchemaError

/-- The wording of the error. -/
def message : SchemaError → String
  | load error => error.message
  | remote error => error.message
  | flatten error => error.message
  | model error => error.message

/-- The exit code of a program that ends with the error. -/
def exitCode : SchemaError → Nat
  | load error => error.exitCode
  | remote error => error.exitCode
  | flatten _ => 2
  | model _ => 2

end SchemaError

/-- The name of the class of the root, unless another one is chosen. -/
def defaultRootName : String := "ResourceModel"

/-- How a document is turned into classes. -/
structure PipelineOptions where
  /-- The absolute URI that the document was loaded from. -/
  baseUri : String
  /-- The name of the class of the root. -/
  rootName : String := defaultRootName
  /-- Whether remote references are inlined. -/
  inlineRemote : Bool := true

/-- A document with all that was made of it. -/
structure ResolvedSchema where
  /-- The document after inlining. -/
  document : Json
  /-- Its flattened schemas. -/
  flattened : FlatSchemas
  /-- Their classes. -/
  models : Models

/-- What came of a run that may ask for documents. -/
structure Run (α : Type) where
  /-- The result, or why there is none. -/
  result : Except SchemaError α
  /-- The URIs that were asked for, in order. -/
  requested : List Uri

/-- The flattened schemas of a document and their classes. -/
def resolveFlattened (document : Json) (rootName : String) :
    Except SchemaError (FlatSchemas × Models) := do
  let flattened ← (flatten document).mapError .flatten
  let models ← (resolve flattened rootName).mapError .model
  return (flattened, models)

/-- The classes of a document without remote references. -/
def resolveModels (document : Json) (rootName : String) : Except SchemaError Models :=
  (resolveFlattened document rootName).map Prod.snd

/-- The document after inlining, if that is switched on. -/
def prepare (limit : Nat) (fetch : Fetch) (options : PipelineOptions) (document : Json) :
    Run Json :=
  if options.inlineRemote then
    let inlined := inline limit fetch options.baseUri document
    ⟨inlined.result.mapError .remote, inlined.requested⟩
  else ⟨.ok document, []⟩

/-- The document after inlining, its flattened schemas and their classes. -/
def loadModels (limit : Nat) (fetch : Fetch) (options : PipelineOptions) (document : Json) :
    Run ResolvedSchema :=
  let prepared := prepare limit fetch options document
  let result := do
    let document ← prepared.result
    let (flattened, models) ← resolveFlattened document options.rootName
    return { document, flattened, models }
  ⟨result, prepared.requested⟩

/-! ## Documents that have to be loaded first -/

/-- What came of loading the documents that have been asked for, by the text of their URIs. -/
abbrev Library := List (String × Except LoadError Json)

/-- The documents of a library. One that is not in it counts as missing. -/
def Library.fetch (library : Library) : Fetch := fun uri =>
  (Assoc.find? library uri.toText).getD (.error (.fileNotFound uri.path.toText))

/-- Loads, one after the other and at most so many, the documents that inlining a document asks
for. Inlining runs once for each of them, with those that are known. -/
def gather {m : Type → Type} [Monad m] (load : Uri → m (Except LoadError Json))
    (baseUri : String) (document : Json) : Nat → Library → m Library
  | 0, library => return library
  | n + 1, library =>
    let asked := (inline (library.length + 2) (Library.fetch library) baseUri document).requested
    match asked.find? fun uri => !Assoc.contains library uri.toText with
    | none => return library
    | some uri => do
      let loaded ← load uri
      gather load baseUri document n (library ++ [(uri.toText, loaded)])

end SchemaClasses
