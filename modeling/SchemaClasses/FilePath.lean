import SchemaClasses.Text.Utf8

/-!
# Paths of files

The path of a file is made of bytes. It need not be the text of anything: then it is shown with
signs in place of the bytes that are none, and leads to no file whose name is a text.
-/

namespace SchemaClasses

/-- The path of a file. -/
structure FilePath where
  /-- The bytes of the path. -/
  bytes : List UInt8
  deriving DecidableEq, Repr

namespace FilePath

/-- The path with some text. -/
def ofText (text : String) : FilePath :=
  ⟨text.toUTF8.data.toList⟩

/-- The text of a path, if its bytes are one. -/
def text? (path : FilePath) : Option String :=
  String.fromUTF8? ⟨path.bytes.toArray⟩

/-- The text that a path is shown as. -/
def shown (path : FilePath) : String :=
  Text.shownText path.bytes

/-- The path of a text has that text. -/
theorem text?_ofText (text : String) : (ofText text).text? = some text :=
  dif_pos text.isValidUTF8

/-- The path of a text is shown as that text. -/
theorem shown_ofText (text : String) : (ofText text).shown = text :=
  Text.shownText_toUTF8 text

end FilePath

end SchemaClasses
