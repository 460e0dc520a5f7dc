import SchemaClasses.Json.Token

/-!
# Reading JSON

The tokens of a text are put together by a machine whose state is the stack of the arrays and
objects that are still open. It takes one token at a time, so no measure is needed for it to end,
and the depth of the stack is the depth of nesting, which is limited to 127.

A repeated key keeps the position of its first occurrence and takes the value of its last one.
-/

namespace SchemaClasses.Json

/-- An array or object that is still open, and what may come next in it. -/
inductive Frame where
  /-- An array: its items, backwards, and whether an item has to follow (after a comma). -/
  | array (items : List Json) (afterComma : Bool)
  /-- An array behind an item: a comma or the end follows. -/
  | arrayRest (items : List Json)
  /-- An object where a key follows, or its end unless a comma came before. -/
  | object (entries : Entries) (afterComma : Bool)
  /-- An object behind a key: a colon follows. -/
  | objectColon (entries : Entries) (key : String)
  /-- An object behind a colon: a value follows. -/
  | objectValue (entries : Entries) (key : String)
  /-- An object behind a value: a comma or the end follows. -/
  | objectRest (entries : Entries)

/-- The state of the reading: the open containers, innermost first, and the whole value once it
is complete. -/
structure Reading where
  /-- The open containers, innermost first. -/
  stack : List Frame
  /-- The value that the text stands for, once it is complete. -/
  result : Option Json

/-- How deeply arrays and objects may be nested. -/
def maxDepth : Nat := 127

/-- Puts a complete value where the reading stands. -/
def Reading.push (value : Json) : List Frame → Option Reading
  | [] => some ⟨[], some value⟩
  | .array items _ :: stack => some ⟨.arrayRest (value :: items) :: stack, none⟩
  | .objectValue entries key :: stack =>
    some ⟨.objectRest (Assoc.insert entries key value) :: stack, none⟩
  | _ => none

/-- Opens a container, unless that would nest too deeply or no value may stand here. -/
def Reading.enter (frame : Frame) (stack : List Frame) : Option Reading :=
  let allowed := match stack with
    | [] => true
    | .array _ _ :: _ => true
    | .objectValue _ _ :: _ => true
    | _ => false
  if allowed && stack.length < maxDepth then some ⟨frame :: stack, none⟩ else none

/-- Takes one token. -/
def Reading.step (reading : Reading) (token : Token) : Option Reading :=
  if reading.result.isSome then none else
    match token, reading.stack with
    | .openArray, stack => enter (.array [] false) stack
    | .openObject, stack => enter (.object [] false) stack
    | .closeArray, .array items afterComma :: stack =>
      if afterComma then none else push (.arr items.reverse) stack
    | .closeArray, .arrayRest items :: stack => push (.arr items.reverse) stack
    | .closeObject, .object entries afterComma :: stack =>
      if afterComma then none else push (.obj entries) stack
    | .closeObject, .objectRest entries :: stack => push (.obj entries) stack
    | .comma, .arrayRest items :: stack => some ⟨.array items true :: stack, none⟩
    | .comma, .objectRest entries :: stack => some ⟨.object entries true :: stack, none⟩
    | .colon, .objectColon entries key :: stack =>
      some ⟨.objectValue entries key :: stack, none⟩
    | .scalar (.str key), .object entries _ :: stack =>
      some ⟨.objectColon entries key :: stack, none⟩
    | .scalar value, stack => push value stack
    | _, _ => none

/-- The value that a list of tokens stands for. -/
def ofTokens? (tokens : List Token) : Option Json := do
  let reading ← tokens.foldlM Reading.step ⟨[], none⟩
  reading.result

/-- The value that a text stands for. -/
def ofText? (text : String) : Option Json := do
  let tokens ← Token.ofText? text.toList
  ofTokens? tokens

end SchemaClasses.Json
