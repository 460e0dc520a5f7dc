import SchemaClasses.Command.Arguments
import SchemaClasses.Generator

/-!
# Running a command line

A command loads a document, gathers what it refers to, and writes the result to the standard
output or to a file. An error is reported in one line, and its kind decides the exit code: 3 if
files are to blame, else 2.
-/

namespace SchemaClasses

/-- What a command has to say when it ends. -/
structure CommandResult where
  /-- The exit code. -/
  exitCode : Nat
  /-- What is written to the standard output. -/
  stdout : String
  /-- What is written to the standard error output. -/
  stderr : String
  deriving DecidableEq, Repr

/-- The end of a command that fails with one line of explanation. -/
def CommandResult.failure (exitCode : Nat) (line : String) : CommandResult :=
  ⟨exitCode, "", line ++ "\n"⟩

/-- The end of a command that meets an error. -/
def CommandResult.ofError (error : SchemaError) : CommandResult :=
  failure error.exitCode ("Error: " ++ error.message)

namespace Invocation

variable {m : Type → Type} [Monad m] (files : FileAccess m) (invocation : Invocation)

/-- How many remote documents a command takes in at most. -/
def maxDocuments : Nat := 1000000

/-- The JSON of a value, on one line or on several, as the options say. -/
def jsonText (value : Json) : String :=
  (if invocation.pretty then value.pretty else value.compact) ++ "\n"

/-- Writes the result of a command. -/
def writeResult (text : String) : m CommandResult := do
  match invocation.output with
  | none => return ⟨0, text, ""⟩
  | some path =>
    if ← files.write path text then return ⟨0, "", ""⟩
    else return .failure 3 ("Error writing to " ++ path)

/-- Loads the document of a command, and the URI that its references are resolved against. -/
def loadInput : m (Except LoadError (Json × String)) := do
  match ← Document.loadSource files invocation.source with
  | .error error => return .error error
  | .ok document =>
    match invocation.baseUri with
    | some baseUri => return .ok (document, baseUri)
    | none =>
      match ← Document.uriOfSource files invocation.source with
      | .error error => return .error error
      | .ok uri => return .ok (document, uri.toText)

/-- The text that a command writes, given its document and what can be fetched. -/
def render (limit : Nat) (fetch : Fetch) (options : PipelineOptions) (document : Json)
    (generator : Option Generator) : Except SchemaError String :=
  match invocation.action, generator with
  | .models _ _, some generator => do
    let resolved ← (loadModels limit fetch options document).result
    return generator.render resolved.models
  | .flatten, _ => do
    let document ← (prepare limit fetch options document).result
    let flattened ← (SchemaClasses.flatten document).mapError .flatten
    return invocation.jsonText flattened.toJson
  | _, _ => do
    let document ← (prepare limit fetch options document).result
    return invocation.jsonText document

/-- Loads the document of a command and all that it refers to, and writes the result. -/
def process (generator : Option Generator) : m CommandResult := do
  match ← loadInput files invocation with
  | .error error => return .ofError (.load error)
  | .ok (document, baseUri) =>
    let rootName := match invocation.action with
      | .models _ rootName => rootName
      | _ => defaultRootName
    let options : PipelineOptions :=
      { baseUri, rootName, inlineRemote := !invocation.noInline }
    let library ← if invocation.noInline then pure []
      else gather (Document.loadUri files) baseUri document maxDocuments []
    let limit := library.length + 2
    match invocation.render limit (Library.fetch library) options document generator with
    | .error error => return .ofError error
    | .ok text => writeResult files invocation text

/-- Runs a command line. The format is looked up before anything is loaded. -/
def run : m CommandResult := do
  match invocation.action with
  | .models format _ =>
    let registry := Registry.builtin invocation.pretty
    match registry.find? format with
    | some generator => process files invocation (some generator)
    | none =>
      return .failure 2 ("Error: unknown format '" ++ format ++ "' (expected one of: " ++
        ", ".intercalate registry.names ++ ")")
  | _ => process files invocation none

end Invocation

end SchemaClasses
