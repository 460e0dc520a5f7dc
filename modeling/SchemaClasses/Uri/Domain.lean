import SchemaClasses.Text.Composition
import SchemaClasses.Text.Direction
import SchemaClasses.Text.Joining
import SchemaClasses.Text.Split
import SchemaClasses.Uri.Domain.Spelling
import SchemaClasses.Uri.Punycode

/-!
# Domain names

A domain name consists of labels with dots between them. `toAscii?` writes it in ASCII: each
character is replaced by its spelling, the name is brought to its composed form, and the labels
that are not ASCII are encoded behind `xn--`. A label that begins like that already has to stand
for a label that nothing would be changed in.

There is no such name if a character may not occur, if a label begins with a mark or has a joiner
where nothing is to be joined, or if the directions of writing do not go together in a name of
which some part is written from the right to the left.
-/

namespace SchemaClasses.Domain

open Text

/-- Whether a character is ASCII. -/
def isAscii (c : Char) : Bool :=
  c.toNat < 0x80

/-- Whether no label may have a character, although it is ASCII. -/
def isForbidden (c : Char) : Bool :=
  c.toNat ≤ 0x20 || c = '\x7f' ||
    ['#', '%', '/', ':', '<', '>', '?', '@', '[', '\\', ']', '^', '|'].contains c

/-- The character that keeps letters apart which would be joined, and the one that joins them. -/
def isJoiner (c : Char) : Bool :=
  c = '\u200C' || c = '\u200D'

/-- Whether a joiner has something to do between the characters before it, the last one first, and
those behind it. -/
def joinerFits (before : List Char) (joiner : Char) (behind : List Char) : Bool :=
  before.head?.any fun previous =>
    combiningClass previous = viramaClass ||
      (joiner = '\u200C' &&
        (before.dropWhile isTransparent).head?.any joinsNext &&
        (behind.dropWhile isTransparent).head?.any joinsPrevious)

/-- Whether all joiners in a text fit, given the characters before it, the last one first. -/
def joinersFit : List Char → List Char → Bool
  | _, [] => true
  | before, c :: rest =>
    (!isJoiner c || joinerFits before c rest) && joinersFit (c :: before) rest

/-- Whether a label is sound. One that is not ASCII has at most 1000 characters. -/
def isSound (label : List Char) : Bool :=
  !label.any isForbidden &&
    (label.all isAscii ||
      (!label.head?.any isMark && joinersFit [] label && label.length ≤ 1000))

/-- A part of a domain name between two dots. -/
structure Label where
  /-- What it reads. -/
  text : List Char
  /-- How it is written in ASCII. -/
  ascii : List Char

namespace Label

/-- A label that is not written in ASCII already. -/
def ofPlain? (text : List Char) : Option Label :=
  if isSound text then
    some ⟨text, if text.all isAscii then text else ['x', 'n', '-', '-'] ++ Punycode.encode text⟩
  else none

/-- Whether a text is a label as it is: nothing in it would be changed. -/
def isFinal (text : List Char) : Bool :=
  text.all (fun c => spelling? c = some [c]) && composed text = text && isSound text

/-- The label with a code behind `xn--`, which has at most 2000 characters. -/
def ofCode? (code : List Char) : Option Label :=
  if code.isEmpty || code.getLast? = some '-' || 2000 < code.length then none
  else
    match Punycode.decode? code with
    | some text =>
      if isFinal text then some ⟨text, ['x', 'n', '-', '-'] ++ code⟩ else none
    | none => none

/-- Reads a label. -/
def ofText? (text : List Char) : Option Label :=
  match text with
  | 'x' :: 'n' :: '-' :: '-' :: code => ofCode? code
  | _ => ofPlain? text

/-- Whether some character of a label is written from the right to the left. -/
def isFromTheRight (label : Label) : Bool :=
  label.text.any fun c => !isAscii c && (Direction.ofChar c).isFromTheRight

/-- Whether the directions of the characters of a label go together. -/
def directionsAgree (label : Label) : Bool :=
  Direction.agree (label.text.map Direction.ofChar)

end Label

/-- A name with each character in its spelling, in the composed form. -/
def respelt? (name : List Char) : Option (List Char) :=
  if name.all isAscii then some (name.map Char.toLower)
  else (name.mapM spelling?).map fun spellings => composed spellings.flatten

/-- The labels of a name. -/
def labels? (name : List Char) : Option (List Label) := do
  let labels ← (Text.splitAt '.' (← respelt? name)).mapM Label.ofText?
  if labels.any Label.isFromTheRight && !labels.all Label.directionsAgree then none
  else return labels

/-- A domain name in ASCII. -/
def toAscii? (name : List Char) : Option (List Char) :=
  (labels? name).map fun labels => ['.'].intercalate (labels.map Label.ascii)

example : (toAscii? "Example.COM".toList).map String.ofList = some "example.com" := by
  decide +kernel
example : toAscii? "a b".toList = none := by decide +kernel

end SchemaClasses.Domain
