import SchemaClasses.Model.Basic
import SchemaClasses.Text.Alphanumeric
import SchemaClasses.Text.Uppercase

/-!
# Class names

A flattened schema is named after the last segment of its place that says what it is: a name
below `properties` or `definitions`, or else a segment that is neither a structural keyword nor a
pattern. Of that segment the part behind the last slash counts; its words are the runs of
alphanumeric characters, and each of them begins with an upper case letter in the name.

The root is given its name. Of schemas with the same base name, and of one with the name of the
root, the later ones get underscores until the name is free.
-/

namespace SchemaClasses.ClassName

/-- A word with its first character in upper case. -/
def capitalize : List Char → List Char
  | [] => []
  | c :: rest => Text.uppercase c ++ rest

/-- The words of a text, each with its first character in upper case, without what stands between
them. -/
def upperCamel (text : String) : String :=
  let (word, words) := Text.splitWhere (fun c => !Text.isAlphanumeric c) text.toList
  String.ofList ((word :: words).flatMap capitalize)

/-- The part of a text behind its last slash. -/
def afterLastSlash (text : String) : String :=
  String.ofList ((text.toList.reverse.takeWhile fun c => c ≠ '/').reverse)

/-- Whether the names below a segment are names that schemas are known by. -/
def isContainer (segment : String) : Bool :=
  segment = "properties" || segment = "definitions"

/-- Whether a segment belongs to the structure of schemas. -/
def isStructural (segment : String) : Bool :=
  segment = "items" || segment = "patternProperties" || segment = "properties"

/-- Whether a segment says what a schema is, given the segment above it. -/
def isTelling (segment : String) (parent : Option String) : Bool :=
  parent.any isContainer ||
    (!isStructural segment && parent ≠ some "patternProperties")

/-- The base name of a place whose segments are listed from the last one on. -/
def baseOfReversed? : List String → Option String
  | [] => none
  | segment :: rest =>
    if isTelling segment rest.head? then
      let name := upperCamel (afterLastSlash segment)
      if name = "" then none else some name
    else baseOfReversed? rest

/-- The base name of the schema at a place. -/
def base (path : SchemaPath) : Except ModelError String :=
  match baseOfReversed? path.segments.reverse with
  | some name => .ok name
  | none => .error (.noClassName path)

/-- Appends underscores to a name, at most so many, until it is not taken. -/
def appendUnderscores (taken : List String) (name : String) : Nat → String
  | 0 => name
  | n + 1 => if name ∈ taken then appendUnderscores taken (name ++ "_") n else name

/-- The first of a name, the name with one underscore, with two, and so on, that is not taken. As
many underscores as there are names taken are always enough. -/
def free (taken : List String) (name : String) : String :=
  appendUnderscores taken name taken.length

/-- The names of classes by the places of their schemas. -/
abbrev Table := List (SchemaPath × String)

/-- Names the schemas at some places, in order, beside those that are named already. -/
def assign (names : Table) : List SchemaPath → Except ModelError Table
  | [] => .ok names
  | path :: rest => do
    let name ← base path
    assign (Assoc.insert names path (free (Assoc.values names) name)) rest

/-- The names of all flattened schemas, the root first. -/
def table (schemas : FlatSchemas) (rootName : String) : Except ModelError Table :=
  let named : Table := if Assoc.contains schemas .root then [(.root, rootName)] else []
  assign named ((Assoc.keys schemas).filter fun path => !path.isRoot)

end SchemaClasses.ClassName
