import SchemaClasses.Assoc
import SchemaClasses.Binary64

/-!
# JSON values

Documents and schemas are both JSON values. An object is a table of entries in the order in which
they were written, since that order shows in every result. Two objects are nevertheless the same
value if they have the same entries in any order, which is what `Json.same` decides.
-/

namespace SchemaClasses

/-- A JSON number: integers stay exact and are never the same as a double. -/
inductive Number where
  /-- A number written without fraction and exponent that fits 64 bits. -/
  | int (value : Int)
  /-- Any other number. -/
  | double (value : Binary64)
  deriving DecidableEq, Repr, Inhabited

/-- A JSON value. -/
inductive Json where
  /-- The value `null`. -/
  | null
  /-- A truth value. -/
  | bool (value : Bool)
  /-- A number. -/
  | num (value : Number)
  /-- A text. -/
  | str (value : String)
  /-- An array of values. -/
  | arr (items : List Json)
  /-- An object, as the table of its entries. -/
  | obj (entries : List (String × Json))
  deriving Repr, Inhabited

/-- The entries of an object, in order. -/
abbrev Entries := List (String × Json)

namespace Number

/-- Whether two numbers are the same: integers by value, doubles with both zeros alike. -/
def same : Number → Number → Bool
  | int a, int b => a = b
  | double a, double b => a.same b
  | _, _ => false

/-- Whether the number is zero. -/
def isZero : Number → Bool
  | int a => a = 0
  | double a => a.isZero

end Number

namespace Json

/-- The name of the kind of value, for messages. -/
def kindName : Json → String
  | null => "null"
  | bool _ => "boolean"
  | num _ => "number"
  | str _ => "string"
  | arr _ => "array"
  | obj _ => "object"

/-- Whether a keyword with this value is switched on: the empty and zero values are not. -/
def isTruthy : Json → Bool
  | null => false
  | bool b => b
  | num n => !n.isZero
  | str s => s ≠ ""
  | arr items => !items.isEmpty
  | obj entries => !entries.isEmpty

/-- The text of a string value. -/
def text? : Json → Option String
  | str s => some s
  | _ => none

/-- The value of a truth value. -/
def bool? : Json → Option Bool
  | bool b => some b
  | _ => none

/-- The entries of an object value. -/
def entries? : Json → Option Entries
  | obj entries => some entries
  | _ => none

/-- Whether the value is an object. -/
def isObject : Json → Bool
  | obj _ => true
  | _ => false

/-- The value under a key of an object; nothing for any other value. -/
def get? : Json → String → Option Json
  | obj entries, key => Assoc.find? entries key
  | _, _ => none

mutual

/-- Whether two values are the same, the order of the entries of objects left aside. -/
def same : Json → Json → Bool
  | null, null => true
  | bool a, bool b => a = b
  | num a, num b => a.same b
  | str a, str b => a = b
  | arr as, arr bs => sameItems as bs
  | obj as, obj bs => as.length = bs.length && sameEntries as bs
  | _, _ => false

/-- Whether two lists hold the same values in the same order. -/
def sameItems : List Json → List Json → Bool
  | [], [] => true
  | a :: as, b :: bs => same a b && sameItems as bs
  | _, _ => false

/-- Whether every entry on the left has an entry on the right with the same key and value. -/
def sameEntries : Entries → Entries → Bool
  | [], _ => true
  | (k, a) :: as, bs =>
    (match Assoc.find? bs k with
      | some b => same a b
      | none => false) && sameEntries as bs

end

mutual

/-- The number of values in a value, itself included. -/
def size : Json → Nat
  | arr items => 1 + sizeItems items
  | obj entries => 1 + sizeEntries entries
  | _ => 1

/-- The number of values in a list of values. -/
def sizeItems : List Json → Nat
  | [] => 0
  | v :: rest => size v + sizeItems rest

/-- The number of values in the entries of an object. -/
def sizeEntries : Entries → Nat
  | [] => 0
  | (_, v) :: rest => size v + sizeEntries rest

end

end Json

end SchemaClasses
