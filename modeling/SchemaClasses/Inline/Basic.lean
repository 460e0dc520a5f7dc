import SchemaClasses.Document.Basic
import SchemaClasses.Flatten.Basic

/-!
# Documents that refer to each other

Inlining starts from one document, the base, and takes in every document that it refers to,
directly or through others. Each remote document gets a number in the order in which they are
first asked for and ends up below the base, under a reserved key. A `Location` is a place in one
of these documents.
-/

namespace SchemaClasses

/-- The key of the base document under which the remote documents are put. -/
def remoteKey : String := "remote"

/-- One of the documents. -/
inductive Space where
  /-- The document that inlining starts from. -/
  | base
  /-- A document that it refers to, by its number. -/
  | remote (number : Nat)
  deriving DecidableEq, Repr

/-- The name of a remote document. -/
def remoteName (number : Nat) : String :=
  "schema" ++ Text.decimal number

/-- The place of the root of a document once all are one. -/
def Space.root : Space → SchemaPath
  | base => .root
  | remote number => ⟨[remoteKey, remoteName number]⟩

/-- A place in one of the documents. -/
structure Location where
  /-- The document. -/
  space : Space
  /-- The place in the document. -/
  path : SchemaPath
  deriving DecidableEq, Repr

/-- The place of a location once all documents are one. -/
def Location.localPath (location : Location) : SchemaPath :=
  location.space.root ++ location.path.segments

/-- The pointer to a location once all documents are one. -/
def Location.toPointer (location : Location) : String :=
  location.localPath.toPointer

/-- Why a reference to a document leads nowhere in it. -/
inductive LostRef where
  /-- Its fragment is no pointer. -/
  | malformed (error : PointerError)
  /-- The document has no value at the place it names. -/
  | nothingAt (path : SchemaPath)
  deriving DecidableEq, Repr

/-- Why a document cannot be inlined. -/
inductive InlineError where
  /-- The reserved key is taken although there are remote documents. -/
  | reservedKey
  /-- A reference, or the address of the base document, is no URI. -/
  | invalidUri (text : String) (error : UriError)
  /-- A document cannot be fetched. -/
  | fetch (uri : Uri) (error : LoadError)
  /-- A reference leads nowhere. -/
  | invalidRef (uri : Uri) (reason : LostRef)
  /-- A chain of references leads back to itself. -/
  | circular (location : Location) (chain : List Location)
  /-- A document with a remote one below it, or a remote document, is no object. -/
  | notAnObject (uri : Uri)
  /-- A location that has been recorded leads nowhere any more. -/
  | lostLocation (location : Location)
  /-- Documents refer to documents more often in a row than the limit allows. -/
  | tooManyDocuments
  deriving DecidableEq, Repr

/-- The wording of why a reference leads nowhere. -/
def LostRef.message : LostRef → String
  | malformed error => error.message
  | nothingAt path => "nothing at '" ++ path.toPointer ++ "'"

namespace InlineError

/-- The wording of the error. -/
def message : InlineError → String
  | reservedKey => "schema already contains remote schemas under '" ++ remoteKey ++ "'"
  | invalidUri text error => "invalid URI '" ++ text ++ "': " ++ error.message
  | fetch uri error => "failed to fetch " ++ uri.toText ++ ": " ++ error.message
  | invalidRef uri reason => "invalid ref '" ++ uri.toText ++ "': " ++ reason.message
  | circular location chain =>
    "circular reference at '" ++ location.toPointer ++ "': " ++
      chainText (chain.map Location.toPointer)
  | notAnObject uri => "document '" ++ uri.toText ++ "' is not a JSON object"
  | lostLocation location =>
    "invalid ref '" ++ location.toPointer ++ "': ref location disappeared"
  | tooManyDocuments => "too many documents"

/-- The exit code of a program that ends with the error. -/
def exitCode : InlineError → Nat
  | fetch _ error => error.exitCode
  | _ => 2

end InlineError

/-! ## The references of a document -/

namespace Json

/-- The reference of a value, if it is an object whose `$ref` is a text. -/
def ref? (value : Json) : Option String :=
  (value.get? refKey).bind text?

/-- Places with their texts, seen from one segment further up. -/
def underSegment (segment : String) (found : List (List String × String)) :
    List (List String × String) :=
  found.map fun (place, text) => (segment :: place, text)

mutual

/-- The references in a value with their places: that of an object before those in its entries,
and otherwise in order. -/
def refs : Json → List (List String × String)
  | arr items => refsOfItems 0 items
  | obj entries =>
    ((obj entries).ref?.toList.map fun text => ([], text)) ++ refsOfEntries entries
  | _ => []

/-- The references in the items of an array from some position on. -/
def refsOfItems (index : Nat) : List Json → List (List String × String)
  | [] => []
  | v :: rest => underSegment (SchemaPath.ofIndex index) (refs v) ++ refsOfItems (index + 1) rest

/-- The references in the entries of an object. -/
def refsOfEntries : Entries → List (List String × String)
  | [] => []
  | (k, v) :: rest => underSegment k (refs v) ++ refsOfEntries rest

end

end Json

end SchemaClasses
