import SchemaClasses.Text.Digits

/-!
# Tables of characters

A large table of characters is written as one text. Its rows stand between spaces or line ends, and
each row is a list of numbers in hexadecimal with dots between them.
-/

namespace SchemaClasses.Text.Table

/-- A table of which a part has been read. -/
structure Reading where
  /-- The rows that have been read, the last one first. -/
  rows : List (List Nat)
  /-- The numbers of the row that is being read, the last one first. -/
  row : List Nat

/-- Ends the row that is being read, if there is one. -/
def Reading.endRow (reading : Reading) : Reading :=
  if reading.row.isEmpty then reading else ⟨reading.row.reverse :: reading.rows, []⟩

/-- Adds a digit to the number that is being read. -/
def Reading.addDigit (reading : Reading) (digit : Nat) : Reading :=
  match reading.row with
  | [] => { reading with row := [digit] }
  | number :: numbers => { reading with row := (number * 16 + digit) :: numbers }

/-- Reads one character. -/
def Reading.step (reading : Reading) (c : Char) : Reading :=
  match hexValue? c with
  | some digit => reading.addDigit digit
  | none => if c = '.' then { reading with row := 0 :: reading.row } else reading.endRow

/-- The rows of a table. -/
def rows (text : String) : List (List Nat) :=
  (text.toList.foldl Reading.step ⟨[], []⟩).endRow.rows.reverse

/-- The ranges of a table whose rows are a first and a last number, or only one number. -/
def ranges (text : String) : List (Nat × Nat) :=
  (rows text).filterMap fun row =>
    match row with
    | [only] => some (only, only)
    | [first, last] => some (first, last)
    | _ => none

/-- Whether a character is in one of some ranges. -/
def covers (ranges : List (Nat × Nat)) (c : Char) : Bool :=
  ranges.any fun range => range.1 ≤ c.toNat && c.toNat ≤ range.2

example : rows "41.5A 61" = [[0x41, 0x5A], [0x61]] := by decide +kernel
example : covers (ranges "41.5A 61") 'Q' = true := by decide +kernel

end SchemaClasses.Text.Table
