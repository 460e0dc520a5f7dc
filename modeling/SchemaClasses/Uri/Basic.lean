import SchemaClasses.Text.Digits

/-!
# URIs

A URI is held in its parts, each of them already normalised and escaped, and `Uri.toText` puts
them together. The path of a URI is either a list of segments or one text without structure; only
a URI of the first kind can be the base of relative references.
-/

namespace SchemaClasses

/-- Why a text is no URI. -/
inductive UriError where
  /-- There is no host where one is needed. -/
  | emptyHost
  /-- The port is no number, or too large. -/
  | invalidPort
  /-- A relative reference has nothing to be resolved against. -/
  | relativeWithoutBase
  /-- A relative reference is to be resolved against a path without structure. -/
  | relativeToUnstructured
  /-- The host is no domain name. -/
  | invalidDomain
  /-- The host is a malformed address of four numbers. -/
  | invalidIpv4
  /-- The host is a malformed address in brackets. -/
  | invalidIpv6
  /-- The host has a character that no host may have. -/
  | invalidHostCharacter
  deriving DecidableEq, Repr

/-- The wording of the error. -/
def UriError.message : UriError → String
  | emptyHost => "empty host"
  | invalidPort => "invalid port number"
  | relativeWithoutBase => "relative URL without a base"
  | relativeToUnstructured => "relative URL with a cannot-be-a-base base"
  | invalidDomain => "invalid international domain name"
  | invalidIpv4 => "invalid IPv4 address"
  | invalidIpv6 => "invalid IPv6 address"
  | invalidHostCharacter => "invalid domain character"

/-- The host of a URI. -/
inductive Host where
  /-- A name, which may be empty. -/
  | domain (name : String)
  /-- An address of four bytes, as one number. -/
  | ipv4 (address : Nat)
  /-- An address of eight pieces of 16 bits. -/
  | ipv6 (pieces : List Nat)
  deriving DecidableEq, Repr

namespace Host

/-- The four numbers of an address, with dots between them. -/
def ipv4Text (address : Nat) : String :=
  ".".intercalate ([Nat.pow 2 24, Nat.pow 2 16, Nat.pow 2 8, 1].map fun unit =>
    Text.decimal (address / unit % 256))

/-- The number of zeros that a list begins with. -/
def leadingZeros (pieces : List Nat) : Nat :=
  (pieces.takeWhile fun piece => piece = 0).length

/-- The position and length of the first of the longest runs of zeros. -/
def longestZeros (pieces : List Nat) : Nat × Nat :=
  (List.range pieces.length).foldl (fun best i =>
    let length := leadingZeros (pieces.drop i)
    if best.2 < length then (i, length) else best) (0, 0)

/-- The pieces of an address in hexadecimal, with colons between them and the longest run of
several zeros left out. -/
def ipv6Text (pieces : List Nat) : String :=
  let hex := pieces.map fun piece => String.ofList (Nat.toDigits 16 piece)
  let (start, length) := longestZeros pieces
  if length < 2 then ":".intercalate hex
  else ":".intercalate (hex.take start) ++ "::" ++ ":".intercalate (hex.drop (start + length))

/-- The text of a host. -/
def toText : Host → String
  | domain name => name
  | ipv4 address => ipv4Text address
  | ipv6 pieces => "[" ++ ipv6Text pieces ++ "]"

end Host

/-- The path of a URI. -/
inductive UriPath where
  /-- One text without structure. -/
  | unstructured (text : String)
  /-- Segments, each of them behind a slash. -/
  | structured (list : List String)
  deriving DecidableEq, Repr

/-- The text of a path. -/
def UriPath.toText : UriPath → String
  | unstructured text => text
  | structured list => String.join (list.map fun segment => "/" ++ segment)

/-- A URI. -/
structure Uri where
  /-- The scheme, in lower case. -/
  scheme : String
  /-- The name of the user; empty if there is none. -/
  username : String
  /-- The password of the user; empty if there is none. -/
  password : String
  /-- The host. A URI without host differs from one with an empty host. -/
  host : Option Host
  /-- The port, unless it is the default one of the scheme. -/
  port : Option Nat
  /-- The path. -/
  path : UriPath
  /-- What follows the question mark. -/
  query : Option String
  /-- What follows the number sign. -/
  fragment : Option String
  deriving DecidableEq, Repr

namespace Uri

/-- The user, the host and the port, behind two slashes. -/
def authorityText (uri : Uri) : String :=
  match uri.host with
  | none => ""
  | some host =>
    let password := if uri.password = "" then "" else ":" ++ uri.password
    let user := uri.username ++ password
    let port := match uri.port with
      | none => ""
      | some port => ":" ++ Text.decimal port
    "//" ++ (if user = "" then "" else user ++ "@") ++ host.toText ++ port

/-- What keeps the path of a URI without host from being read as a host. -/
def pathGuard (uri : Uri) : String :=
  match uri.host, uri.path with
  | none, .structured ("" :: _ :: _) => "/."
  | _, _ => ""

/-- The text of a URI. -/
def toText (uri : Uri) : String :=
  let query := match uri.query with
    | none => ""
    | some query => "?" ++ query
  let fragment := match uri.fragment with
    | none => ""
    | some fragment => "#" ++ fragment
  uri.scheme ++ ":" ++ uri.authorityText ++ uri.pathGuard ++ uri.path.toText ++ query ++ fragment

/-- The text without the spaces at its end. -/
def trimTrailingSpaces (text : String) : String :=
  String.ofList (text.toList.reverse.dropWhile fun c => c = ' ').reverse

/-- The URI without its fragment. A path without structure may not end in spaces then, if nothing
follows it. -/
def withoutFragment (uri : Uri) : Uri :=
  match uri.path, uri.query with
  | .unstructured text, none =>
    { uri with fragment := none, path := .unstructured (trimTrailingSpaces text) }
  | _, _ => { uri with fragment := none }

end Uri

end SchemaClasses
