import SchemaClasses.Text.Percent
import SchemaClasses.Text.Split

/-!
# Pointers

A pointer is the text of a path through a document: the segments of the path behind an anchor
(`#` inside a URI), each preceded by a slash. A segment is written with `~` as `~0` and `/` as
`~1`, and then percent-encoded, so that neither a slash nor a character that URIs reserve is left
in it. Reading splits at the slashes first and undoes both encodings in each piece, the anchor
included.
-/

namespace SchemaClasses

/-- What is wrong with the text of a pointer. -/
inductive PointerError where
  /-- The text begins with something other than the anchor. -/
  | wrongAnchor (expected actual : String)
  /-- The bytes of a segment are not UTF-8. -/
  | invalidEncoding (segment : String)
  deriving DecidableEq, Repr

namespace PointerError

/-- The wording of the error. -/
def message : PointerError → String
  | wrongAnchor expected actual =>
    "expected prefix '" ++ expected ++ "', but was '" ++ actual ++ "'"
  | invalidEncoding segment =>
    "invalid percent-encoding in pointer segment '" ++ segment ++ "'"

end PointerError

namespace Pointer

/-- The characters that stand for one character of a segment. -/
def escapeChar (c : Char) : List Char :=
  if c = '~' then ['~', '0'] else if c = '/' then ['~', '1'] else [c]

/-- A segment with its tildes and slashes escaped. -/
def escape (segment : String) : String :=
  String.ofList (segment.toList.flatMap escapeChar)

/-- Undoes `escapeChar` along a text; a tilde that begins no escape stands for itself. -/
def unescapeChars : List Char → List Char
  | [] => []
  | '~' :: '0' :: rest => '~' :: unescapeChars rest
  | '~' :: '1' :: rest => '/' :: unescapeChars rest
  | c :: rest => c :: unescapeChars rest

/-- The segment that an escaped text stands for. -/
def unescape (segment : String) : String :=
  String.ofList (unescapeChars segment.toList)

/-- The text of one segment of a pointer. -/
def encodeSegment (segment : String) : String :=
  Percent.encode (escape segment)

/-- The segment that a piece of a pointer stands for. -/
def decodeSegment (piece : String) : Except PointerError String :=
  match Percent.decode? piece with
  | some text => .ok (unescape text)
  | none => .error (.invalidEncoding piece)

/-- The pointer to a path. -/
def encode (anchor : String) (segments : List String) : String :=
  segments.foldl (fun pointer segment => pointer ++ "/" ++ encodeSegment segment) anchor

/-- The path that a pointer leads along. The anchor is compared before any later segment is
decoded. -/
def decode (anchor pointer : String) : Except PointerError (List String) := do
  let (first, pieces) := Text.splitWhere (fun c => c = '/') pointer.toList
  let actual ← decodeSegment (String.ofList first)
  if actual ≠ anchor then throw (.wrongAnchor anchor actual)
  pieces.mapM fun piece => decodeSegment (String.ofList piece)

end Pointer

end SchemaClasses
