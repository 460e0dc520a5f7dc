import SchemaClasses.SchemaPath

/-!
# Merging schemas

`merge` puts the keywords of one schema object into another. Keywords that only the source has
are added. Objects that both have are merged in turn, and inside `properties` and
`patternProperties` the keys are names of schemas and not keywords. `type` and `$ref` together
name the alternatives of a schema, so they unify into one list of them. `required` becomes the
sorted union. `uniqueItems` and `insertionOrder` have to agree, and any other keyword takes the
value of the source.

A merge that meets a disagreement stops there and keeps what it has merged so far.
-/

namespace SchemaClasses

/-- Two schemas disagree about a keyword. -/
structure Conflict where
  /-- The place of the schema object that has the keyword. -/
  path : SchemaPath
  /-- The keyword. -/
  keyword : String
  /-- The value of the target. -/
  target : Json
  /-- The value of the source. -/
  source : Json
  deriving Repr

/-- What a merge has made of its target, and the disagreement that stopped it, if one did. -/
structure Merged (α : Type) where
  /-- The target with all that was merged into it. -/
  value : α
  /-- The disagreement that stopped the merge. -/
  conflict : Option Conflict := none

namespace Merged

/-- The same merge seen from a value that contains the target. -/
def map {α β : Type} (f : α → β) (merged : Merged α) : Merged β :=
  ⟨f merged.value, merged.conflict⟩

end Merged

namespace Merge

/-! ## Types and references -/

/-- The members of a `type` value: those of a list, or the value alone. -/
def alternatives : Json → List Json
  | .arr items => items
  | other => [other]

/-- Whether a list has a value, the order of the entries of objects left aside. -/
def hasValue (values : List Json) (value : Json) : Bool :=
  values.any fun v => v.same value

/-- Appends to a list the values that it does not have yet. -/
def appendNew (types : List Json) (values : List Json) : List Json :=
  values.foldl (fun types v => if hasValue types v then types else types ++ [v]) types

/-- The `type` value of a list of alternatives: a single one stands alone. -/
def typeOfAlternatives : List Json → Json
  | [single] => single
  | types => .arr types

/-- Unifies a `type` or `$ref` with those of the target. The same reference twice stays a
reference; all else becomes one `type` of all alternatives. -/
def unifyType (target : Entries) (key : String) (value : Json) : Entries :=
  let oldType := Assoc.find? target typeKey
  let oldRef := Assoc.find? target refKey
  let sameRef := match oldRef with
    | some ref => key = refKey && ref.same value
    | none => false
  if oldType.isNone && oldRef.isNone then Assoc.insert target key value
  else if oldType.isNone && sameRef then target
  else
    let old := (oldType.toList ++ oldRef.toList).foldl
      (fun types v => appendNew types (alternatives v)) []
    let rest := Assoc.swapErase (Assoc.swapErase target typeKey) refKey
    Assoc.insert rest typeKey (typeOfAlternatives (appendNew old (alternatives value)))

/-! ## Required names -/

/-- Puts a name into a sorted list of different names. -/
def insertName (name : String) : List String → List String
  | [] => [name]
  | other :: rest =>
    if name < other then name :: other :: rest
    else if name = other then other :: rest
    else other :: insertName name rest

/-- The names that a `required` value lists. -/
def requiredNames : Json → List String
  | .arr items => items.filterMap Json.text?
  | .str name => [name]
  | _ => []

/-- The sorted union of two `required` values. -/
def unionRequired (target source : Json) : Json :=
  .arr (((requiredNames target ++ requiredNames source).foldr insertName []).map Json.str)

/-! ## Objects -/

/-- How the keys of an object are read. -/
inductive Keys where
  /-- As keywords of a schema. -/
  | keywords
  /-- As names of schemas. -/
  | names
  deriving DecidableEq, Repr

/-- How the keys of an object under some keyword are read. -/
def Keys.under (keyword : String) : Keys :=
  if keyword = "properties" ∨ keyword = "patternProperties" then .names else .keywords

/-- Whether the values of a keyword have to agree. -/
def mustAgree (keyword : String) : Bool :=
  keyword = "uniqueItems" || keyword = "insertionOrder"

/-- Merges a keyword that both sides have, unless both values are objects. -/
def mergePlain (path : SchemaPath) (target : Entries) (keyword : String) (old new : Json) :
    Merged Entries :=
  if keyword = "required" then ⟨Assoc.insert target keyword (unionRequired old new), none⟩
  else if mustAgree keyword && !old.same new then ⟨target, some ⟨path, keyword, old, new⟩⟩
  else ⟨Assoc.insert target keyword new, none⟩

mutual

/-- Merges the entries of an object into those of another, in order. -/
def mergeEntries (keys : Keys) (path : SchemaPath) (target : Entries) :
    Entries → Merged Entries
  | [] => ⟨target, none⟩
  | (key, value) :: rest =>
    let merged := mergeEntry keys path target key value
    match merged.conflict with
    | none => mergeEntries keys path merged.value rest
    | some _ => merged

/-- Merges one entry into the entries of an object. -/
def mergeEntry (keys : Keys) (path : SchemaPath) (target : Entries) (key : String) :
    Json → Merged Entries
  | .obj source =>
    if keys = .keywords ∧ (key = typeKey ∨ key = refKey) then
      ⟨unifyType target key (.obj source), none⟩
    else
      match Assoc.find? target key with
      | some (.obj old) =>
        let inner := match keys with
          | .names => Keys.keywords
          | .keywords => Keys.under key
        (mergeEntries inner (path.child key) old source).map fun entries =>
          Assoc.insert target key (.obj entries)
      | some old =>
        match keys with
        | .names => ⟨Assoc.insert target key (.obj source), none⟩
        | .keywords => mergePlain path target key old (.obj source)
      | none => ⟨Assoc.insert target key (.obj source), none⟩
  | value =>
    if keys = .keywords ∧ (key = typeKey ∨ key = refKey) then
      ⟨unifyType target key value, none⟩
    else
      match keys, Assoc.find? target key with
      | .keywords, some old => mergePlain path target key old value
      | _, _ => ⟨Assoc.insert target key value, none⟩

end

end Merge

/-- Merges a schema object into another; `path` is the place of the target. -/
def merge (target source : Entries) (path : SchemaPath) : Merged Entries :=
  Merge.mergeEntries .keywords path target source

end SchemaClasses
