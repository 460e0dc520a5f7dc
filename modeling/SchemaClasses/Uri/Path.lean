import SchemaClasses.Text.Percent
import SchemaClasses.Text.Split
import SchemaClasses.Uri.Basic

/-!
# Reading paths

The path of a URI is read one piece between slashes at a time into a list of segments, the last of
which is the one being read. A piece of one dot is dropped and a piece of two dots takes back the
segment before it, also if the dots are escaped. No pair of dots takes back a drive letter.

A `file` path may begin with a drive letter, behind which any host is dropped. Such a drive letter
is a segment of its own even if no slash follows it: if it comes from a base, or if a tab or a line
end has been dropped behind it. Empty segments at the start of a `file` path are dropped.
-/

namespace SchemaClasses

/-- How the URIs of a scheme are built. -/
inductive SchemeKind where
  /-- As paths of files. -/
  | file
  /-- With a host and a path, where a backslash counts as a slash. -/
  | special
  /-- In a way that is not known. -/
  | other
  deriving DecidableEq, Repr

namespace SchemeKind

/-- The kind of a scheme. -/
def ofScheme (scheme : String) : SchemeKind :=
  if scheme = "file" then file
  else if scheme ∈ ["http", "https", "ws", "wss", "ftp"] then special
  else other

/-- Whether the scheme is one of those that are known. -/
def isKnown (kind : SchemeKind) : Bool :=
  kind ≠ other

/-- Whether a character is a slash of either kind. -/
def isAnySlash (c : Char) : Bool :=
  c = '/' || c = '\\'

/-- Whether a character separates segments. -/
def isSlash (kind : SchemeKind) (c : Char) : Bool :=
  c = '/' || (kind.isKnown && c = '\\')

end SchemeKind

namespace UriPath

/-- Whether a character is a control character. -/
def isControl (c : Char) : Bool :=
  c.toNat < 0x20 || c = '\x7f'

/-- Whether a fragment escapes a character. -/
def escapedInFragment (c : Char) : Bool :=
  isControl c || [' ', '"', '<', '>', '\x60'].contains c

/-- Whether a path escapes a character. -/
def escapedInPath (c : Char) : Bool :=
  escapedInFragment c || ['#', '?', '\x7b', '\x7d'].contains c

/-- Whether a segment that comes from the name of a file escapes a character. -/
def escapedInName (c : Char) : Bool :=
  escapedInPath c || ['/', '%', '\\'].contains c

/-- Whether a segment is a drive letter: a letter and a colon or a bar. -/
def isDriveLetter (segment : String) : Bool :=
  match segment.toList with
  | [c, mark] => c.isAlpha && (mark = ':' || mark = '|')
  | _ => false

/-- Whether a segment is a drive letter with a colon. -/
def isPlainDriveLetter (segment : String) : Bool :=
  isDriveLetter segment && segment.toList.getLast? = some ':'

/-- A drive letter with a colon in place of a bar. -/
def plainDriveLetter (segment : String) : String :=
  String.ofList (segment.toList.take 1 ++ [':'])

/-- Whether a text begins with a drive letter that ends with the text or at a slash, a question
mark or a number sign. -/
def startsWithDriveLetter : List Char → Bool
  | c :: mark :: rest =>
    c.isAlpha && (mark = ':' || mark = '|') &&
      (match rest with
        | [] => true
        | next :: _ => ['/', '\\', '?', '#'].contains next)
  | _ => false

/-- Whether a piece is one dot. -/
def isDot (piece : String) : Bool :=
  piece = "." || piece = "%2e" || piece = "%2E"

/-- Whether a piece is two dots. -/
def isDoubleDot (piece : String) : Bool :=
  let plain := String.ofList (piece.toList.map Char.toLower)
  plain = ".." || plain = "%2e%2e" || plain = "%2e." || plain = ".%2e"

/-- Whether a character is dropped wherever it stands: a tab or a line end. -/
def isBreak (c : Char) : Bool :=
  c = '\t' || c = '\n' || c = '\r'

/-- A text without the tabs and line ends in it. -/
def withoutBreaks (text : List Char) : List Char :=
  text.filter fun c => !isBreak c

/-- What is left of a text behind so many characters, not counting tabs and line ends. -/
def dropBehind : Nat → List Char → List Char
  | 0, text => text
  | _ + 1, [] => []
  | n + 1, c :: rest => if isBreak c then dropBehind (n + 1) rest else dropBehind n rest

/-- Tabs and line ends are not counted: what is left without them is what is left of the text
without them. -/
theorem withoutBreaks_dropBehind (n : Nat) (text : List Char) :
    withoutBreaks (dropBehind n text) = (withoutBreaks text).drop n := by
  fun_induction dropBehind n text with
  | case1 => rfl
  | case2 => rfl
  | case3 n c rest h ih => simpa [withoutBreaks, h] using ih
  | case4 n c rest h ih => simpa [withoutBreaks, h] using ih

/-- The segments read so far, and whether a drive letter has been met. -/
structure PathReading where
  /-- The segments, the last one first. The last one is being read. -/
  segments : List String
  /-- Whether the first segment has been found to be a drive letter. -/
  drive : Bool

/-- Adds a text to the last segment. -/
def addToLast (text : String) : List String → List String
  | [] => [text]
  | last :: before => (last ++ text) :: before

/-- Empties the last segment, unless it is the drive letter of a file. -/
def pop (kind : SchemeKind) : List String → List String
  | [] => []
  | last :: before =>
    if kind = .file ∧ isPlainDriveLetter last then last :: before else "" :: before

/-- Takes back the segment before the last one, if the last one is empty and the one before it
does not begin like a drive letter. -/
def takeBack : List String → List String
  | "" :: previous :: before =>
    if startsWithDriveLetter previous.toList then "" :: previous :: before else "" :: before
  | segments => segments

/-- Begins a new segment, unless the last one is empty. -/
def beginSegment : List String → List String
  | "" :: before => "" :: before
  | segments => "" :: segments

/-- Begins a new segment behind a path that is only the drive letter of a file. -/
def closeDrive (kind : SchemeKind) : List String → List String
  | [drive] => if kind = .file ∧ isPlainDriveLetter drive then ["", drive] else [drive]
  | segments => segments

/-- Splits the first piece of the path of a file behind a drive letter, if a tab or a line end
follows the drive letter and something else follows them. -/
def splitDrive? (kind : SchemeKind) (segments : List String) (piece : List Char) :
    Option (String × List Char) :=
  let drive := String.ofList ((withoutBreaks piece).take 2)
  let rest := dropBehind 2 piece
  if kind = .file ∧ segments = [""] ∧ isPlainDriveLetter drive ∧ rest.head?.any isBreak ∧
      withoutBreaks rest ≠ [] then
    some (drive, withoutBreaks rest)
  else none

/-- Reads one piece into the last segment; `more` says whether a slash follows it. -/
def readPiece (kind : SchemeKind) (reading : PathReading) (piece : List Char) (more : Bool) :
    PathReading :=
  let next := fun segments : List String => if more then "" :: segments else segments
  let text := Percent.encodeWhere escapedInPath (withoutBreaks piece)
  let segments := if text = "" then reading.segments else closeDrive kind reading.segments
  match splitDrive? kind segments piece with
  | some (drive, rest) =>
    { reading with segments := next [Percent.encodeWhere escapedInPath rest, drive] }
  | none =>
    if isDoubleDot text then
      let segments := takeBack segments
      { reading with segments := if more then beginSegment segments else segments }
    else if isDot text then { reading with segments := beginSegment segments }
    else
      let drive := kind = .file && segments = [""] && isDriveLetter text
      ⟨next (addToLast (if drive then plainDriveLetter text else text) segments),
        reading.drive || drive⟩

/-- Reads one piece after the other. -/
def readPieces (kind : SchemeKind) (reading : PathReading) :
    List Char → List (List Char) → PathReading
  | piece, [] => readPiece kind reading piece false
  | piece, next :: rest => readPieces kind (readPiece kind reading piece true) next rest

/-- Drops the empty segments that a path begins with, as long as another one follows. -/
def dropEmptyFront : List String → List String
  | "" :: next :: rest => dropEmptyFront (next :: rest)
  | segments => segments

/-- Reads a path behind some segments, the last one of which is given first and read on. -/
def read (kind : SchemeKind) (start : List String) (text : List Char) : PathReading :=
  let (piece, pieces) := Text.splitWhere kind.isSlash text
  readPieces kind ⟨start, false⟩ piece pieces

/-- The segments of a path that has been read, the first one first. -/
def PathReading.path (reading : PathReading) (kind : SchemeKind) : List String :=
  if kind = .file then dropEmptyFront reading.segments.reverse else reading.segments.reverse

end UriPath

end SchemaClasses
