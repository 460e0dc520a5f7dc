import SchemaClasses.FilePath
import SchemaClasses.Uri.Host
import SchemaClasses.Uri.Path

/-!
# Reading URIs

`Uri.parse` reads an absolute URI and `Uri.join` a reference, which may be relative to a base: it
may begin with an authority, with a path from the root, with a path beside the last segment of the
base, with a query, or with a fragment, and takes from the base whatever comes before that.

Spaces and control characters around the text are dropped, and so are tabs and line ends inside
it.
-/

namespace SchemaClasses.Uri

open SchemeKind (isAnySlash)
open UriPath (withoutBreaks dropBehind)

/-- The text without the spaces and control characters around it. -/
def trim (text : String) : List Char :=
  let outer := fun c : Char => decide (c.toNat ≤ 0x20)
  ((text.toList.dropWhile outer).reverse.dropWhile outer).reverse

/-- Splits a scheme and its colon off a text. -/
def splitScheme? (text : List Char) : Option (String × List Char) :=
  let isSchemeChar := fun c : Char => c.isAlphanum || c = '+' || c = '-' || c = '.'
  match text.head?, text.dropWhile isSchemeChar with
  | some first, ':' :: rest =>
    if first.isAlpha then
      some (String.ofList ((text.takeWhile isSchemeChar).map Char.toLower), rest)
    else none
  | _, _ => none

/-- The port that a scheme has if none is given. -/
def defaultPort? (scheme : String) : Option Nat :=
  if scheme = "http" ∨ scheme = "ws" then some 80
  else if scheme = "https" ∨ scheme = "wss" then some 443
  else if scheme = "ftp" then some 21
  else none

/-! ## Query and fragment -/

/-- Whether a query escapes a character. -/
def escapedInQuery (kind : SchemeKind) (c : Char) : Bool :=
  UriPath.isControl c || [' ', '"', '#', '<', '>'].contains c || (kind.isKnown && c = '\'')

/-- Whether the user or the password escapes a character. -/
def escapedInUser (c : Char) : Bool :=
  UriPath.escapedInPath c ||
    ['/', ':', ';', '=', '@', '[', '\\', ']', '^', '|'].contains c

/-- Whether a character ends the path of a URI. -/
def endsPath (c : Char) : Bool :=
  c = '?' || c = '#'

/-- The text up to the query or the fragment, and the rest. -/
def splitPath (text : List Char) : List Char × List Char :=
  (text.takeWhile fun c => !endsPath c, text.dropWhile fun c => !endsPath c)

/-- The query and the fragment that a text consists of. -/
def readTail (kind : SchemeKind) (text : List Char) : Option String × Option String :=
  let query := text.takeWhile fun c => c ≠ '#'
  let fragment := match text.dropWhile fun c => c ≠ '#' with
    | [] => none
    | _ :: rest => some (Percent.encodeWhere UriPath.escapedInFragment rest)
  match query with
  | [] => (none, fragment)
  | _ :: rest => (some (Percent.encodeWhere (escapedInQuery kind) rest), fragment)

/-- The URI with the query and the fragment that a text consists of. -/
def withTail (uri : Uri) (text : List Char) : Uri :=
  let (query, fragment) := readTail (SchemeKind.ofScheme uri.scheme) text
  { uri with query, fragment }

/-- The URI with a path read from a text behind some segments, the last one of which is given
first, and with what follows the path. -/
def withPath (uri : Uri) (start : List String) (text : List Char) : Uri :=
  let kind := SchemeKind.ofScheme uri.scheme
  let (path, tail) := splitPath text
  withTail { uri with path := .structured ((UriPath.read kind start path).path kind) }
    (withoutBreaks tail)

/-- A URI of which only the scheme is known. -/
def ofScheme (scheme : String) : Uri where
  scheme
  username := ""
  password := ""
  host := none
  port := none
  path := .structured []
  query := none
  fragment := none

/-! ## Authorities -/

/-- Splits the user and the password off an authority: they end at its last at sign. -/
def splitUser (kind : SchemeKind) (text : List Char) :
    Except UriError (String × String × List Char) :=
  let isEnd := fun c : Char => kind.isSlash c || endsPath c
  let authority := text.takeWhile fun c => !isEnd c
  if !authority.contains '@' then .ok ("", "", text)
  else
    let host := (authority.reverse.takeWhile fun c => c ≠ '@').reverse
    let user := authority.take (authority.length - host.length - 1)
    let rest := text.drop (authority.length - host.length)
    if user.isEmpty && rest.head?.any isEnd then .error .emptyHost
    else
      let encode := Percent.encodeWhere escapedInUser
      let name := user.takeWhile fun c => c ≠ ':'
      .ok (encode name, encode (user.drop (name.length + 1)), rest)

/-- The number of characters of a host: it ends at a colon outside brackets or where the authority
ends. -/
def hostLength (kind : SchemeKind) : Bool → List Char → Nat
  | _, [] => 0
  | bracketed, c :: rest =>
    if (c = ':' && !bracketed) || kind.isSlash c || endsPath c then 0
    else
      let bracketed := if c = '[' then true else if c = ']' then false else bracketed
      1 + hostLength kind bracketed rest

/-- Reads the digits of a port, up to a slash, a query, a fragment or the end. -/
def readPort (port : Nat) : List Char → Except UriError (Nat × List Char)
  | [] => .ok (port, [])
  | c :: rest =>
    if c.isDigit then
      let port := port * 10 + Text.digitValue c
      if 0xFFFF < port then .error .invalidPort else readPort port rest
    else if ['/', '\\', '?', '#'].contains c then .ok (port, c :: rest)
    else .error .invalidPort

/-- Reads the port behind a host, if there is one; the default port of the scheme is none. -/
def splitPort (scheme : String) (text : List Char) :
    Except UriError (Option Nat × List Char) :=
  match text with
  | ':' :: rest => do
    let (port, after) ← readPort 0 rest
    let given := rest.head?.any Char.isDigit
    return (if given ∧ some port ≠ defaultPort? scheme then some port else none, after)
  | _ => .ok (none, text)

/-- Reads the path behind an authority. -/
def withRootedPath (uri : Uri) (text : List Char) : Uri :=
  let kind := SchemeKind.ofScheme uri.scheme
  match text with
  | [] => if kind.isKnown then withPath uri [""] [] else uri
  | c :: rest =>
    if kind.isSlash c then withPath uri [""] rest
    else if !kind.isKnown && endsPath c then withTail uri text
    else withPath uri [""] text

/-- Reads an authority and all that follows it. -/
def readAuthority (scheme : String) (text : List Char) : Except UriError Uri := do
  let kind := SchemeKind.ofScheme scheme
  let (username, password, text) ← splitUser kind text
  let length := hostLength kind false text
  let name := text.take length
  let text := text.drop length
  if kind.isKnown && name.isEmpty then throw .emptyHost
  let host ← if kind.isKnown then Host.ofSpecial name else Host.ofPlain name
  if name.isEmpty && text.head? = some ':' then throw .emptyHost
  let (port, text) ← splitPort scheme text
  if name.isEmpty && !(username = "" && password = "") then throw .emptyHost
  return withRootedPath { ofScheme scheme with username, password, host := some host, port } text

/-! ## Files -/

/-- A file on this machine. -/
def localFile : Uri :=
  { ofScheme "file" with host := some (.domain "") }

/-- The host of a file, where the name of this machine counts as none. -/
def fileHost (name : List Char) : Except UriError Host :=
  if name.isEmpty then .ok (.domain "")
  else (Host.ofSpecial name).map fun host =>
    if host = .domain "localhost" then .domain "" else host

/-- Reads the host and the path of a file, behind two slashes. A drive letter is no host, and a
host before one is dropped. -/
def readFileHost (text : List Char) : Except UriError Uri := do
  let isEnd := fun c : Char => isAnySlash c || endsPath c
  let name := (withoutBreaks text).takeWhile fun c => !isEnd c
  let name := if UriPath.isDriveLetter (String.ofList name) then [] else name
  let rest := dropBehind name.length text
  let path := if (withoutBreaks rest).head?.any isAnySlash then dropBehind 1 rest else rest
  let (pathText, _) := splitPath path
  let host ← fileHost name
  let host := if (UriPath.read .file [""] pathText).drive then .domain "" else host
  return withPath { localFile with host := some host } [""] path

/-- The segments of a path. -/
def segments (uri : Uri) : List String :=
  match uri.path with
  | .structured list => list
  | .unstructured _ => []

/-- The URI of a file with a path from the root of the base, behind one slash. The drive letter of
the base is kept, or else its host. -/
def fileFromRoot (base : Option Uri) (text : List Char) : Uri :=
  match base with
  | none => withPath localFile [""] text
  | some base =>
    if UriPath.startsWithDriveLetter (withoutBreaks text) then withPath localFile [""] text
    else
      match base.segments with
      | first :: _ =>
        if UriPath.isPlainDriveLetter first then withPath localFile ["", first] text
        else withPath { localFile with host := base.host } [""] text
      | [] => withPath { localFile with host := base.host } [""] text

/-- The URI of a file with a path beside the last segment of the base, or with what follows the
path of the base. -/
def fileBeside (base : Option Uri) (text : List Char) : Uri :=
  match base with
  | none => withPath localFile [""] text
  | some base =>
    let plain := withoutBreaks text
    match plain with
    | [] => { base with fragment := none }
    | '?' :: _ => withTail base plain
    | '#' :: _ => { withTail base plain with query := base.query }
    | _ =>
      if UriPath.startsWithDriveLetter plain then withPath localFile [""] text
      else withPath base (UriPath.pop .file base.segments.reverse) text

/-- Reads what follows the scheme of a file, which may be relative to the URI of another file. The
tabs and line ends are still in the text, because a drive letter ends at them. -/
def readFile (base : Option Uri) (text : List Char) : Except UriError Uri :=
  match ((withoutBreaks text).takeWhile isAnySlash).length with
  | 0 => .ok (fileBeside base text)
  | 1 => .ok (fileFromRoot base (dropBehind 1 text))
  | _ => readFileHost (dropBehind 2 text)

/-! ## Whole URIs -/

/-- Reads a reference without scheme against a base with a structured path. -/
def readRelative (base : Uri) (text : List Char) : Except UriError Uri :=
  match text with
  | [] => .ok { base with fragment := none }
  | '?' :: _ => .ok (withTail base text)
  | '#' :: _ => .ok { withTail base text with query := base.query }
  | '/' :: '/' :: rest => readAuthority base.scheme rest
  | c :: rest =>
    if isAnySlash c then
      if rest.head?.any isAnySlash then readAuthority base.scheme (rest.dropWhile isAnySlash)
      else .ok (withPath base [""] rest)
    else
      let start := UriPath.pop (SchemeKind.ofScheme base.scheme) base.segments.reverse
      .ok (withPath base (UriPath.beginSegment start) text)

/-- Reads what follows a scheme of no known kind. -/
def readOther (scheme : String) (text : List Char) : Except UriError Uri :=
  match text with
  | '/' :: '/' :: rest => readAuthority scheme rest
  | '/' :: rest => .ok (withPath (ofScheme scheme) [""] rest)
  | _ =>
    let (path, tail) := splitPath text
    let path := .unstructured (Percent.encodeWhere UriPath.isControl path)
    .ok (withTail { ofScheme scheme with path } tail)

/-- Whether the path has no structure. -/
def isUnstructured (uri : Uri) : Bool :=
  match uri.path with
  | .unstructured _ => true
  | .structured _ => false

/-- Reads a URI or a reference, relative to a base if there is one. -/
def read (base : Option Uri) (text : String) : Except UriError Uri :=
  let trimmed := trim text
  let text := withoutBreaks trimmed
  match splitScheme? text with
  | some (scheme, rest) =>
    match SchemeKind.ofScheme scheme with
    | .file =>
      readFile (base.filter fun base => base.scheme = "file")
        (dropBehind (text.length - rest.length) trimmed)
    | .special =>
      let slashes := (rest.takeWhile isAnySlash).length
      match base with
      | some base =>
        if slashes < 2 ∧ base.scheme = scheme then readRelative base rest
        else readAuthority scheme (rest.drop slashes)
      | none => readAuthority scheme (rest.drop slashes)
    | .other => readOther scheme rest
  | none =>
    match base with
    | none => .error .relativeWithoutBase
    | some base =>
      if text.head? = some '#' then .ok { withTail base text with query := base.query }
      else if base.isUnstructured then .error .relativeToUnstructured
      else if base.scheme = "file" then readFile (some base) trimmed
      else readRelative base text

/-- Reads an absolute URI. -/
def parse (text : String) : Except UriError Uri :=
  read none text

/-- Resolves a reference against this URI. -/
def join (base : Uri) (reference : String) : Except UriError Uri :=
  read (some base) reference

/-! ## Files and their paths -/

/-- The URI of the file at an absolute path. -/
def ofFilePath (segments : List String) : Uri :=
  let names := segments.map fun name => Percent.encodeWhere UriPath.escapedInName name.toList
  { localFile with path := .structured (if names.isEmpty then [""] else names) }

/-- The path of the file that a URI names, unless it names one on another machine. A path that
ends like a drive letter ends with a slash. -/
def filePath? (uri : Uri) : Option FilePath :=
  match uri.host, uri.path with
  | host, .structured list =>
    if host = none ∨ host = some (.domain "") ∨ host = some (.domain "localhost") then
      let slash := UInt8.ofNat '/'.toNat
      let bytes := list.flatMap fun segment => slash :: Percent.decodeBytes segment.toList
      let isDrive := match bytes.reverse with
        | mark :: letter :: _ :: _ =>
          (Char.ofNat letter.toNat).isAlpha &&
            [':', '|'].contains (Char.ofNat mark.toNat)
        | _ => false
      some ⟨if isDrive then bytes ++ [slash] else bytes⟩
    else none
  | _, .unstructured _ => none

end SchemaClasses.Uri
