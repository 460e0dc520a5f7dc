import SchemaClasses.Json.Parser
import SchemaClasses.Uri.Parser

/-!
# Loading documents

A document is loaded from the text of a file, which is named by a path or by a `file` URI. What
can be done with files is given as a `FileAccess`, so that loading can be run on the files of this
machine as well as on files that are held as a value.
-/

namespace SchemaClasses

/-- Why a document cannot be loaded. -/
inductive LoadError where
  /-- There is no file at a path. -/
  | fileNotFound (path : String)
  /-- The file at a path cannot be read as text. -/
  | unreadable (path : String)
  /-- The text is no JSON. -/
  | invalidJson
  /-- Documents cannot be loaded from URIs of this kind. -/
  | unsupportedScheme (uri : String)
  deriving DecidableEq, Repr

namespace LoadError

/-- The wording of the error. -/
def message : LoadError → String
  | fileNotFound path => "file not found: " ++ path
  | unreadable path => "cannot read " ++ path
  | invalidJson => "invalid JSON"
  | unsupportedScheme uri => "cannot load '" ++ uri ++ "': unsupported URI scheme"

/-- The exit code of a program that ends with the error: 3 if a file is to blame, else 2. -/
def exitCode : LoadError → Nat
  | fileNotFound _ => 3
  | unreadable _ => 3
  | invalidJson => 2
  | unsupportedScheme _ => 2

end LoadError

/-- What is at a path. -/
inductive PathContent where
  /-- Nothing. -/
  | missing
  /-- Something without bytes that could be read, such as a directory. -/
  | unreadable
  /-- A file with these bytes. -/
  | bytes (content : ByteArray)

/-- What a program can do with files. -/
structure FileAccess (m : Type → Type) where
  /-- The segments of the absolute path of what is at a path, if anything is. -/
  absolute? : String → m (Option (List String))
  /-- What is at a path. -/
  read : FilePath → m PathContent
  /-- Writes a text to the file at a path; whether that succeeded. -/
  write : String → String → m Bool

namespace Document

/-- Reads a document from its text. -/
def ofText (text : String) : Except LoadError Json :=
  match Json.ofText? text with
  | some document => .ok document
  | none => .error .invalidJson

/-- Reads a document from what is at a path. -/
def ofContent (path : FilePath) : PathContent → Except LoadError Json
  | .missing => .error (.fileNotFound path.shown)
  | .unreadable => .error (.unreadable path.shown)
  | .bytes content =>
    match String.fromUTF8? content with
    | some text => ofText text
    | none => .error (.unreadable path.shown)

/-- Whether the source of a document is a web address rather than a path. -/
def isWebAddress (source : String) : Bool :=
  source.startsWith "http://" || source.startsWith "https://"

variable {m : Type → Type} [Monad m] (files : FileAccess m)

/-- Loads the document in the file at a path. -/
def loadFile (path : FilePath) : m (Except LoadError Json) := do
  return ofContent path (← files.read path)

/-- Loads the document that a URI names, whatever its fragment. Only files can be loaded. -/
def loadUri (uri : Uri) : m (Except LoadError Json) :=
  if uri.scheme = "file" then
    match uri.filePath? with
    | some path => loadFile files path
    | none => return .error (.unsupportedScheme uri.toText)
  else return .error (.unsupportedScheme uri.toText)

/-- The URI of the source of a document: a web address as it is, or the absolute path of a
file. -/
def uriOfSource (source : String) : m (Except LoadError Uri) := do
  if isWebAddress source then
    match Uri.parse source with
    | .ok uri => return .ok uri
    | .error _ => return .error (.unsupportedScheme source)
  else
    match ← files.absolute? source with
    | some segments => return .ok (Uri.ofFilePath segments)
    | none => return .error (.fileNotFound source)

/-- Loads the document at a source. -/
def loadSource (source : String) : m (Except LoadError Json) := do
  match ← uriOfSource files source with
  | .ok uri => loadUri files uri
  | .error error => return .error error

end Document

end SchemaClasses
