/-!
# Digits

Natural numbers in decimal, and the digits of base 16.
-/

namespace SchemaClasses.Text

/-- A natural number in decimal, without leading zeros. -/
def decimal (n : Nat) : String :=
  String.ofList (Nat.toDigits 10 n)

/-- The value of a decimal digit. -/
def digitValue (c : Char) : Nat :=
  c.toNat - '0'.toNat

/-- The number that decimal digits stand for. -/
def ofDecimal (digits : List Char) : Nat :=
  digits.foldl (fun n c => n * 10 + digitValue c) 0

/-- The value of a hexadecimal digit of either case. -/
def hexValue? (c : Char) : Option Nat :=
  if c.isDigit then some (digitValue c)
  else if 'a' ≤ c ∧ c ≤ 'f' then some (c.toNat - 'a'.toNat + 10)
  else if 'A' ≤ c ∧ c ≤ 'F' then some (c.toNat - 'A'.toNat + 10)
  else none

/-- A hexadecimal digit in lower case. -/
def lowerHex (n : Nat) : Char :=
  Nat.digitChar n

/-- A hexadecimal digit in upper case. -/
def upperHex (n : Nat) : Char :=
  (Nat.digitChar n).toUpper

/-! ## Reading what was written -/

/-- An upper-case hexadecimal digit is read as its value. -/
theorem hexValue?_upperHex {n : Nat} (h : n < 16) : hexValue? (upperHex n) = some n := by
  have all : ∀ m ∈ List.range 16, hexValue? (upperHex m) = some m := by decide
  exact all n (List.mem_range.mpr h)

/-- A lower-case hexadecimal digit is read as its value. -/
theorem hexValue?_lowerHex {n : Nat} (h : n < 16) : hexValue? (lowerHex n) = some n := by
  have all : ∀ m ∈ List.range 16, hexValue? (lowerHex m) = some m := by decide
  exact all n (List.mem_range.mpr h)

end SchemaClasses.Text
