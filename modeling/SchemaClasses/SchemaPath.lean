import SchemaClasses.Json.Printer
import SchemaClasses.Pointer

/-!
# Places in a document

A `SchemaPath` leads from the root of a document to one of its values: each segment is a key of an
object or, in decimal, a position in an array. `Json.at?` follows a path and `Json.modifyAt?`
changes the value at its end.

A `Reference` is what a `$ref` names: the text of a pointer that is still to be followed, or a
path that is known to be right.
-/

namespace SchemaClasses

/-- The place of a value in a document. -/
structure SchemaPath where
  /-- The keys and positions from the root on. -/
  segments : List String
  deriving DecidableEq, Repr, Inhabited

namespace SchemaPath

/-- The place of the document itself. -/
def root : SchemaPath := ⟨[]⟩

/-- The place one segment below. -/
def child (path : SchemaPath) (segment : String) : SchemaPath :=
  ⟨path.segments ++ [segment]⟩

/-- The place at the end of some more segments. -/
def append (path : SchemaPath) (segments : List String) : SchemaPath :=
  ⟨path.segments ++ segments⟩

instance : HAppend SchemaPath (List String) SchemaPath := ⟨append⟩

/-- The segment of a position in an array. -/
def ofIndex (index : Nat) : String :=
  Text.decimal index

/-- Whether this is the place of the document itself. -/
def isRoot (path : SchemaPath) : Bool :=
  path.segments.isEmpty

/-- The number of segments. -/
def length (path : SchemaPath) : Nat :=
  path.segments.length

/-- The pointer to this place, behind a number sign. -/
def toPointer (path : SchemaPath) : String :=
  Pointer.encode "#" path.segments

/-- The place that a pointer behind a number sign leads to. -/
def ofPointer (pointer : String) : Except PointerError SchemaPath :=
  (Pointer.decode "#" pointer).map SchemaPath.mk

/-- A child is one segment further down. -/
@[simp] theorem segments_child (path : SchemaPath) (segment : String) :
    (path.child segment).segments = path.segments ++ [segment] := rfl

/-- The segments of a longer path are those of both parts. -/
@[simp] theorem segments_append (path : SchemaPath) (segments : List String) :
    (path ++ segments).segments = path.segments ++ segments := rfl

end SchemaPath

/-! ## Following a path -/

/-- The position that a segment stands for in an array: decimal digits, perhaps behind a plus
sign, of a number below `2^64`. -/
def arrayIndex? (segment : String) : Option Nat :=
  let digits := match segment.toList with
    | '+' :: rest => rest
    | text => text
  if digits.isEmpty || !digits.all Char.isDigit then none else
    if Text.ofDecimal digits < Nat.pow 2 64 then some (Text.ofDecimal digits) else none

namespace Json

/-- The value one segment below. -/
def step? (value : Json) (segment : String) : Option Json :=
  match value with
  | obj entries => Assoc.find? entries segment
  | arr items => (arrayIndex? segment).bind fun i => items[i]?
  | _ => none

/-- The value at the end of a list of segments. -/
def descend? (value : Json) : List String → Option Json
  | [] => some value
  | segment :: rest => (value.step? segment).bind fun next => next.descend? rest

/-- The value at a place of a document. -/
def at? (document : Json) (path : SchemaPath) : Option Json :=
  document.descend? path.segments

/-- The value with what lies one segment below replaced; nothing if there is nothing below. -/
def putStep? (value : Json) (segment : String) (new : Json) : Option Json :=
  match value with
  | obj entries =>
    if Assoc.contains entries segment then some (obj (Assoc.insert entries segment new)) else none
  | arr items =>
    match arrayIndex? segment with
    | some i => if i < items.length then some (arr (items.set i new)) else none
    | none => none
  | _ => none

/-- The value with what lies at the end of a list of segments changed. -/
def modifyDescend? (change : Json → Option Json) (value : Json) : List String → Option Json
  | [] => change value
  | segment :: rest => do
    let next ← value.step? segment
    let new ← modifyDescend? change next rest
    value.putStep? segment new

/-- The document with the value at a place changed; nothing if there is no value at that place or
the change does not apply to it. -/
def modifyAt? (document : Json) (path : SchemaPath) (change : Json → Option Json) : Option Json :=
  document.modifyDescend? change path.segments

/-- Going down two lists of segments is going down one after the other. -/
theorem descend?_append (value : Json) (front back : List String) :
    value.descend? (front ++ back) =
      (value.descend? front).bind fun next => next.descend? back := by
  induction front generalizing value with
  | nil => rfl
  | cons segment rest ih =>
    simp only [List.cons_append, descend?]
    cases value.step? segment with
    | none => rfl
    | some next => simp [ih next]

end Json

/-! ## References -/

/-- The keyword of references. -/
def refKey : String := "$ref"

/-- The keyword of types. -/
def typeKey : String := "type"

/-- What a `$ref` names. -/
inductive Reference where
  /-- The text of a pointer that is still to be followed. -/
  | unresolved (pointer : String)
  /-- A place that is known to hold a flattened schema. -/
  | canonical (path : SchemaPath)
  deriving DecidableEq, Repr

namespace Reference

/-- The reference of a schema object, if its `$ref` is a text. -/
def ofSchema? (schema : Entries) : Option Reference :=
  ((Assoc.find? schema refKey).bind Json.text?).map unresolved

/-- The text of the pointer. -/
def toPointer : Reference → String
  | unresolved pointer => pointer
  | canonical path => path.toPointer

/-- The schema object that consists of this reference alone. -/
def toSchema (reference : Reference) : Json :=
  .obj [(refKey, .str reference.toPointer)]

end Reference

end SchemaClasses
