import SchemaClasses.Inline.Basic

/-!
# Surveying the references

Before anything is changed, the base document and every document that is reached from it are
searched for references. Each reference is resolved against the URI of its document, and its
target is recorded in a graph with one edge from the location of the reference to the location it
names. A document is fetched when a reference to it is first met, and searched at once, before the
search of the other document goes on; so each document is fetched and searched only once.

The documents that are asked for are recorded also if the survey fails.
-/

namespace SchemaClasses

/-- Where documents come from. -/
abbrev Fetch := Uri → Except LoadError Json

/-- What a survey has found so far. -/
structure Survey where
  /-- The documents by the text of their URIs, in the order in which they were first met. -/
  spaces : List (String × Space)
  /-- The contents of the documents. -/
  documents : List (Space × Json)
  /-- The target of each reference, by the location of the reference. -/
  edges : List (Location × Location)
  /-- The URIs that have been asked for, in order. -/
  requested : List Uri

/-- A computation that extends a survey, also if it fails. -/
abbrev SurveyM := ExceptT InlineError (StateM Survey)

namespace Survey

/-- The survey that knows only the base document. -/
def start (base : Uri) (document : Json) : Survey where
  spaces := [(base.toText, .base)]
  documents := [(.base, document)]
  edges := []
  requested := []

/-- The content of a document. -/
def document (space : Space) : SurveyM Json := do
  match Assoc.find? (← get).documents space with
  | some document => return document
  | none => throw (.lostLocation ⟨space, .root⟩)

/-- Asks for a document and gives it the next number. Nothing is asked for if the reserved key of
the base document is taken. -/
def load (fetch : Fetch) (uri : Uri) : SurveyM Space := do
  let base ← document .base
  if (base.get? remoteKey).isSome then throw .reservedKey
  let space := Space.remote ((← get).spaces.length - 1)
  modify fun survey => { survey with requested := survey.requested ++ [uri] }
  match fetch uri with
  | .error error => throw (.fetch uri error)
  | .ok content =>
    if !content.isObject then throw (.notAnObject uri)
    modify fun survey =>
      { survey with
        spaces := Assoc.insert survey.spaces uri.toText space
        documents := Assoc.insert survey.documents space content }
    return space

/-- The document with some URI, and whether it had to be fetched. -/
def spaceOf (fetch : Fetch) (uri : Uri) : SurveyM (Space × Bool) := do
  match Assoc.find? (← get).spaces uri.toText with
  | some space => return (space, false)
  | none => return (← load fetch uri, true)

/-- Records one reference of a document with some URI, and searches its target document if that
had to be fetched. -/
def follow (fetch : Fetch) (search : Space → Uri → Json → SurveyM Unit) (scope : Uri)
    (source : Location) (reference : String) : SurveyM Unit := do
  match scope.join reference with
  | .error error => throw (.invalidUri reference error)
  | .ok uri =>
    match Pointer.decode "" (uri.fragment.getD "") with
    | .error error => throw (.invalidRef uri (.malformed error))
    | .ok segments =>
      let documentUri := uri.withoutFragment
      let (space, fetched) ← spaceOf fetch documentUri
      let target : Location := ⟨space, ⟨segments⟩⟩
      let content ← document space
      if (content.at? target.path).isNone then throw (.invalidRef uri (.nothingAt target.path))
      modify fun survey => { survey with edges := Assoc.insert survey.edges source target }
      if fetched then search space documentUri content

/-- Records a list of references of a document. -/
def followAll (fetch : Fetch) (search : Space → Uri → Json → SurveyM Unit) (space : Space)
    (scope : Uri) : List (List String × String) → SurveyM Unit
  | [] => return
  | (place, reference) :: rest => do
    follow fetch search scope ⟨space, ⟨place⟩⟩ reference
    followAll fetch search space scope rest

/-- Searches a document, and the documents that it is the first to refer to, down to a limit of
documents in a row. -/
def search (fetch : Fetch) : Nat → Space → Uri → Json → SurveyM Unit
  | 0 => fun _ _ _ => throw .tooManyDocuments
  | limit + 1 => fun space scope content =>
    followAll fetch (search fetch limit) space scope content.refs

/-- The survey of a document with some URI, without fragment. -/
def run (limit : Nat) (fetch : Fetch) (base : Uri) (document : Json) :
    Except InlineError Unit × Survey :=
  (search fetch limit .base base document).run.run (start base document)

end Survey

end SchemaClasses
