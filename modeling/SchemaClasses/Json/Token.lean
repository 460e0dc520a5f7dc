import SchemaClasses.Json.Number

/-!
# The tokens of a JSON text

A text is cut into tokens by a machine that reads one character at a time. Its state says where
the reading stands: between tokens, in a word (a number or a literal name), in a string, after a
backslash, or in the digits of a `\u` escape. Since each step consumes one character, the reading
ends with the text.

A string may not hold a control character as it is, and an escape above U+FFFF is written as a
pair of surrogates; half a pair is refused.
-/

namespace SchemaClasses.Json

/-- A token of a JSON text. -/
inductive Token where
  /-- The bracket that opens an array. -/
  | openArray
  /-- The bracket that closes an array. -/
  | closeArray
  /-- The brace that opens an object. -/
  | openObject
  /-- The brace that closes an object. -/
  | closeObject
  /-- A comma. -/
  | comma
  /-- A colon. -/
  | colon
  /-- A value without parts: a text, a number or a literal name. -/
  | scalar (value : Json)
  deriving Repr, Inhabited

namespace Token

/-- Where the reading of a text stands. Texts and words are held backwards. -/
inductive Mode where
  /-- Between two tokens. -/
  | between
  /-- In a number or a literal name. -/
  | word (read : List Char)
  /-- In a string. -/
  | inText (read : List Char)
  /-- In a string, after a backslash. -/
  | escape (read : List Char)
  /-- In the digits of a `\u` escape: how many are missing, their value so far, and the first
  surrogate of the pair that this escape has to complete. -/
  | unicode (read : List Char) (missing : Nat) (value : Nat) (high : Option Nat)
  /-- After a first surrogate, before the backslash of the second. -/
  | pair (read : List Char) (high : Nat)
  /-- After a first surrogate, before the `u` of the second. -/
  | pairMark (read : List Char) (high : Nat)

/-- What has been read: the tokens, backwards, and the mode. -/
structure State where
  /-- The tokens read so far, the last one first. -/
  tokens : List Token
  /-- Where the reading stands. -/
  mode : Mode

/-- The token of a character that is one by itself. -/
def ofChar? : Char → Option Token
  | '[' => some openArray
  | ']' => some closeArray
  | '{' => some openObject
  | '}' => some closeObject
  | ',' => some comma
  | ':' => some colon
  | _ => none

/-- Whether a character may stand between two tokens. -/
def isBlank (c : Char) : Bool :=
  c = ' ' || c = '\t' || c = '\n' || c = '\r'

/-- Whether a character may belong to a number or a literal name. -/
def isWordChar (c : Char) : Bool :=
  c.isAlphanum || c = '-' || c = '+' || c = '.'

/-- The token of a word. -/
def ofWord? (word : List Char) : Option Token :=
  if word = ['n', 'u', 'l', 'l'] then some (scalar .null)
  else if word = ['t', 'r', 'u', 'e'] then some (scalar (.bool true))
  else if word = ['f', 'a', 'l', 's', 'e'] then some (scalar (.bool false))
  else (Number.ofText? word).map fun n => scalar (.num n)

/-- The character behind a backslash, other than `u`. -/
def escaped? : Char → Option Char
  | '"' => some '"'
  | '\\' => some '\\'
  | '/' => some '/'
  | 'b' => some '\x08'
  | 'f' => some '\x0c'
  | 'n' => some '\n'
  | 'r' => some '\r'
  | 't' => some '\t'
  | _ => none

/-- Whether a code unit is the first half of a surrogate pair. -/
def isHighSurrogate (n : Nat) : Bool :=
  0xD800 ≤ n && n < 0xDC00

/-- Whether a code unit is the second half of a surrogate pair. -/
def isLowSurrogate (n : Nat) : Bool :=
  0xDC00 ≤ n && n < 0xE000

/-- The mode behind a complete `\u` escape. -/
def afterUnicode (read : List Char) (value : Nat) : Option Nat → Option Mode
  | none =>
    if isHighSurrogate value then some (.pair read value)
    else if isLowSurrogate value then none
    else some (.inText (Char.ofNat value :: read))
  | some high =>
    if isLowSurrogate value then
      some (.inText (Char.ofNat (0x10000 + (high - 0xD800) * 0x400 + (value - 0xDC00)) :: read))
    else none

/-- Reads one character between two tokens. -/
def start (tokens : List Token) (c : Char) : Option State :=
  if isBlank c then some ⟨tokens, .between⟩
  else if c = '"' then some ⟨tokens, .inText []⟩
  else if isWordChar c then some ⟨tokens, .word [c]⟩
  else (ofChar? c).map fun token => ⟨token :: tokens, .between⟩

/-- Reads one character. -/
def step (state : State) (c : Char) : Option State :=
  match state.mode with
  | .between => start state.tokens c
  | .word read =>
    if isWordChar c then some ⟨state.tokens, .word (c :: read)⟩
    else do
      let token ← ofWord? read.reverse
      start (token :: state.tokens) c
  | .inText read =>
    if c = '"' then
      some ⟨scalar (.str (String.ofList read.reverse)) :: state.tokens, .between⟩
    else if c = '\\' then some ⟨state.tokens, .escape read⟩
    else if c < ' ' then none
    else some ⟨state.tokens, .inText (c :: read)⟩
  | .escape read =>
    if c = 'u' then some ⟨state.tokens, .unicode read 4 0 none⟩
    else (escaped? c).map fun c => ⟨state.tokens, .inText (c :: read)⟩
  | .unicode read missing value high => do
    let digit ← Text.hexValue? c
    if missing ≤ 1 then
      let mode ← afterUnicode read (value * 16 + digit) high
      return ⟨state.tokens, mode⟩
    else return ⟨state.tokens, .unicode read (missing - 1) (value * 16 + digit) high⟩
  | .pair read high =>
    if c = '\\' then some ⟨state.tokens, .pairMark read high⟩ else none
  | .pairMark read high =>
    if c = 'u' then some ⟨state.tokens, .unicode read 4 0 (some high)⟩ else none

/-- Ends the reading: a word may end with the text, a string may not. -/
def finish (state : State) : Option (List Token) :=
  match state.mode with
  | .between => some state.tokens.reverse
  | .word read => (ofWord? read.reverse).map fun token => (token :: state.tokens).reverse
  | _ => none

/-- The tokens of a text. -/
def ofText? (text : List Char) : Option (List Token) := do
  let state ← text.foldlM step ⟨[], .between⟩
  finish state

end Token

end SchemaClasses.Json
