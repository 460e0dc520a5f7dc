import SchemaClasses.Json.Number

/-!
# Writing JSON

`Json.compact` writes a value without any space, `Json.pretty` with one entry or item a line and
two spaces for each level. A string escapes the quote, the backslash and the control characters
below U+0020, and holds every other character as it is.
-/

namespace SchemaClasses.Json

/-- The characters that stand for one character inside a string. -/
def escapeChar (c : Char) : List Char :=
  if c = '"' then ['\\', '"']
  else if c = '\\' then ['\\', '\\']
  else if c = '\x08' then ['\\', 'b']
  else if c = '\x0c' then ['\\', 'f']
  else if c = '\n' then ['\\', 'n']
  else if c = '\r' then ['\\', 'r']
  else if c = '\t' then ['\\', 't']
  else if c < ' ' then
    ['\\', 'u', '0', '0', Text.lowerHex (c.toNat / 16), Text.lowerHex (c.toNat % 16)]
  else [c]

/-- A string in quotes. -/
def quote (text : String) : String :=
  String.ofList ('"' :: text.toList.flatMap escapeChar ++ ['"'])

mutual

/-- The text of a value without any space. -/
def compact : Json → String
  | null => "null"
  | bool true => "true"
  | bool false => "false"
  | num n => n.toText
  | str s => quote s
  | arr items => "[" ++ ",".intercalate (compactItems items) ++ "]"
  | obj entries => "\x7b" ++ ",".intercalate (compactEntries entries) ++ "\x7d"

/-- The texts of the items of an array. -/
def compactItems : List Json → List String
  | [] => []
  | v :: rest => compact v :: compactItems rest

/-- The texts of the entries of an object. -/
def compactEntries : Entries → List String
  | [] => []
  | (k, v) :: rest => (quote k ++ ":" ++ compact v) :: compactEntries rest

end

/-- A new line that begins with two spaces for each level. -/
def newline (level : Nat) : String :=
  "\n" ++ String.ofList (List.replicate (2 * level) ' ')

/-- Lines between brackets, one level deeper than the brackets; nothing between them if there are
no lines. -/
def block (opening closing : String) (level : Nat) (lines : List String) : String :=
  if lines.isEmpty then opening ++ closing
  else opening ++ newline (level + 1) ++ ("," ++ newline (level + 1)).intercalate lines ++
    newline level ++ closing

mutual

/-- The text of a value on several lines, at some level of nesting. -/
def prettyAt (level : Nat) : Json → String
  | null => "null"
  | bool true => "true"
  | bool false => "false"
  | num n => n.toText
  | str s => quote s
  | arr items => block "[" "]" level (prettyItems (level + 1) items)
  | obj entries => block "\x7b" "\x7d" level (prettyEntries (level + 1) entries)

/-- The texts of the items of an array at some level of nesting. -/
def prettyItems (level : Nat) : List Json → List String
  | [] => []
  | v :: rest => prettyAt level v :: prettyItems level rest

/-- The texts of the entries of an object at some level of nesting. -/
def prettyEntries (level : Nat) : Entries → List String
  | [] => []
  | (k, v) :: rest => (quote k ++ ": " ++ prettyAt level v) :: prettyEntries level rest

end

/-- The text of a value on several lines. -/
def pretty (value : Json) : String :=
  prettyAt 0 value

end SchemaClasses.Json
