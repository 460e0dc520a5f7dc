import SchemaClasses.Inline.Survey

/-!
# One document out of many

Once all references are known, each is redirected to a pointer inside one document. A reference to
a location that is itself a reference is led on to the end of that chain, and a chain that leads
back to itself is an error. Then the remote documents are put below the base document under the
reserved key, each behind a comment that says which URI it came from.
-/

namespace SchemaClasses

namespace Survey

/-- Follows the edges from a location, of which so many may still be followed; the locations that
have been passed are listed in order, the first of them being where the chain began. -/
def finalFrom (edges : List (Location × Location)) (first : Location) :
    Nat → List Location → Location → Except InlineError Location
  | steps, passed, current =>
    match Assoc.find? edges current with
    | none => .ok current
    | some next =>
      if current ∈ passed then .error (.circular first (passed ++ [current]))
      else
        match steps with
        | 0 => .error (.circular first (passed ++ [current]))
        | steps + 1 => finalFrom edges first steps (passed ++ [current]) next

/-- The end of the chain of references from a location. No chain has more references than there
are edges, unless it meets one of them again. -/
def finalTarget (edges : List (Location × Location)) (source : Location) :
    Except InlineError Location :=
  match Assoc.find? edges source with
  | none => .error (.lostLocation source)
  | some next => finalFrom edges source edges.length [source] next

/-- The location of each reference with the pointer that it is redirected to. -/
def redirections (edges : List (Location × Location)) :
    Except InlineError (List (Location × String)) :=
  (Assoc.keys edges).mapM fun source => do
    let target ← finalTarget edges source
    return (source, target.toPointer)

/-- An object with its `$ref` replaced. -/
def setRef (pointer : String) : Json → Option Json
  | .obj entries => some (.obj (Assoc.insert entries refKey (.str pointer)))
  | _ => none

/-- The documents with one reference redirected. -/
def redirectOne (documents : List (Space × Json)) (source : Location) (pointer : String) :
    Except InlineError (List (Space × Json)) :=
  match (Assoc.find? documents source.space).bind fun document =>
      document.modifyAt? source.path (setRef pointer) with
  | some document => .ok (Assoc.insert documents source.space document)
  | none => .error (.lostLocation source)

/-- The documents with all references redirected, in order. -/
def redirectAll (documents : List (Space × Json)) :
    List (Location × String) → Except InlineError (List (Space × Json))
  | [] => .ok documents
  | (source, pointer) :: rest => do
    let documents ← redirectOne documents source pointer
    redirectAll documents rest

/-- The key of the comment that says where a remote document came from. -/
def commentKey : String := "$comment"

/-- A remote document behind the comment with its URI. A comment of the document itself takes the
place of that one. -/
def withSource (uri : String) (content : Entries) : Entries :=
  content.foldl (fun entries entry => Assoc.insert entries entry.1 entry.2)
    [(commentKey, .str uri)]

/-- The remote documents as entries of one object. -/
def remoteEntries (spaces : List (String × Space)) (documents : List (Space × Json)) : Entries :=
  spaces.filterMap fun (uri, space) =>
    match space, Assoc.find? documents space with
    | .remote number, some (.obj content) =>
      some (remoteName number, .obj (withSource uri content))
    | _, _ => none

/-- The base document with the remote documents below it. -/
def attach (base : Uri) (spaces : List (String × Space)) (documents : List (Space × Json)) :
    Except InlineError Json :=
  let root := (Assoc.find? documents .base).getD .null
  match remoteEntries spaces documents, root with
  | [], root => .ok root
  | remote, .obj entries => .ok (.obj (Assoc.insert entries remoteKey (.obj remote)))
  | _, _ => .error (.notAnObject base)

/-- One document out of all that a survey has found. -/
def combine (base : Uri) (survey : Survey) : Except InlineError Json := do
  let redirections ← redirections survey.edges
  let documents ← redirectAll survey.documents redirections
  attach base survey.spaces documents

end Survey

/-- What came of inlining a document. -/
structure Inlined where
  /-- The document without remote references. -/
  result : Except InlineError Json
  /-- The URIs that were asked for, in order. -/
  requested : List Uri

/-- Inlines the remote references of a document whose absolute URI is given, as long as no more
documents than the limit refer to each other in a row. -/
def inline (limit : Nat) (fetch : Fetch) (baseUri : String) (document : Json) : Inlined :=
  match Uri.parse baseUri with
  | .error error => ⟨.error (.invalidUri baseUri error), []⟩
  | .ok uri =>
    let base := uri.withoutFragment
    let (outcome, survey) := Survey.run limit fetch base document
    ⟨outcome.bind fun _ => survey.combine base, survey.requested⟩

end SchemaClasses
