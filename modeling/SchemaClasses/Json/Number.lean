import SchemaClasses.Binary64.Shortest
import SchemaClasses.Json.Basic
import SchemaClasses.Text.Digits

/-!
# Numbers as text

Reading keeps as many leading digits as fit into 64 bits; each digit of the integer part that is
left over counts one power of ten, each digit of the fraction that is left over is ignored. The
digits kept make a double, which is then multiplied with or divided by a power of ten, itself a
double. A number written as an integer that fits 64 bits stays one, except that `-0` is the
double.

Writing a double uses the fewest digits that read back, in positional notation for magnitudes from
`10^-5` up to, but not including, `10^16`, and in scientific notation elsewhere.
-/

namespace SchemaClasses.Number

/-! ## Reading -/

/-- The parts of a number as it is written. -/
structure Literal where
  /-- Whether a minus sign comes first. -/
  negative : Bool
  /-- The digits before the point. -/
  whole : List Char
  /-- The digits after the point, if there is a point. -/
  fraction : Option (List Char)
  /-- Whether the exponent has a minus sign, and its digits, if there is an exponent. -/
  exponent : Option (Bool × List Char)
  deriving DecidableEq, Repr

/-- Splits off the leading decimal digits. -/
def spanDigits (text : List Char) : List Char × List Char :=
  (text.takeWhile Char.isDigit, text.dropWhile Char.isDigit)

/-- Splits off the exponent: a letter `e`, perhaps a sign, and at least one digit. -/
def spanExponent (text : List Char) : Option (Option (Bool × List Char) × List Char) :=
  match text with
  | c :: rest =>
    if c = 'e' ∨ c = 'E' then
      let (negative, rest) := match rest with
        | '-' :: rest => (true, rest)
        | '+' :: rest => (false, rest)
        | rest => (false, rest)
      match spanDigits rest with
      | ([], _) => none
      | (digits, rest) => some (some (negative, digits), rest)
    else some (none, text)
  | [] => some (none, [])

/-- Splits off the fraction: a point and at least one digit. -/
def spanFraction (text : List Char) : Option (Option (List Char) × List Char) :=
  match text with
  | '.' :: rest =>
    match spanDigits rest with
    | ([], _) => none
    | (digits, rest) => some (some digits, rest)
  | _ => some (none, text)

/-- The parts of a text that is a number from its first to its last character. A leading zero
stands alone. -/
def Literal.ofText? (text : List Char) : Option Literal := do
  let (negative, text) := match text with
    | '-' :: rest => (true, rest)
    | rest => (false, rest)
  let (whole, text) := spanDigits text
  if whole.isEmpty ∨ (whole.head? = some '0' ∧ whole.length ≠ 1) then none else
    let (fraction, text) ← spanFraction text
    let (exponent, text) ← spanExponent text
    if text.isEmpty then some { negative, whole, fraction, exponent } else none

/-- Appends digits to a number for as long as it fits into 64 bits, and counts the digits left
over. -/
def appendDigits (n : Nat) : List Char → Nat × Nat
  | [] => (n, 0)
  | c :: rest =>
    if n * 10 + Text.digitValue c < Nat.pow 2 64 then appendDigits (n * 10 + Text.digitValue c) rest
    else (n, rest.length + 1)

/-- A power of ten as a double. -/
def powerOfTen (k : Nat) : Binary64 :=
  (Binary64.ofNat? (Nat.pow 10 k)).getD (Binary64.zero false)

/-- The largest exponent for which a power of ten is a finite double. -/
def maxPowerOfTen : Nat := 308

/-- Divides by `10^k`, by at most `10^308` at a time, until nothing is left. -/
def scaleDown (x : Binary64) (k : Nat) : Option Binary64 :=
  if k ≤ maxPowerOfTen then x.div? (powerOfTen k)
  else if x.isZero then some x
  else do
    let y ← x.div? (powerOfTen maxPowerOfTen)
    scaleDown y (k - maxPowerOfTen)
termination_by k
decreasing_by unfold maxPowerOfTen at *; omega

/-- Multiplies with `10^k`, if the product is finite. -/
def scaleUp (x : Binary64) (k : Nat) : Option Binary64 :=
  if k ≤ maxPowerOfTen then x.mul? (powerOfTen k)
  else if x.isZero then some x
  else none

/-- The double of magnitude `significand · 10^exponent`, rounded at each step. -/
def doubleOf (negative : Bool) (significand : Nat) (exponent : Int) : Option Binary64 := do
  let x ← Binary64.ofNat? significand
  let y ← if exponent < 0 then scaleDown x exponent.natAbs else scaleUp x exponent.natAbs
  return if negative then y.neg else y

/-- The number of an integer that has been read in full. -/
def ofInteger (negative : Bool) (n : Nat) : Option Number :=
  if !negative then some (int n)
  else if 0 < n ∧ n ≤ Nat.pow 2 63 then some (int (-n))
  else (doubleOf true n 0).map double

/-- The number that a literal stands for, if it is finite. -/
def Literal.value? (literal : Literal) : Option Number :=
  let (significand, dropped) := appendDigits 0 literal.whole
  match literal.fraction, literal.exponent, dropped with
  | none, none, 0 => ofInteger literal.negative significand
  | fraction, exponent, _ =>
    let digits := fraction.getD []
    let (significand, ignored) := appendDigits significand digits
    let shift : Int := dropped - (digits.length - ignored : Nat)
    let power : Int := match exponent with
      | none => 0
      | some (negative, digits) =>
        let n := Text.ofDecimal digits
        if negative then -n else n
    (doubleOf literal.negative significand (shift + power)).map double

/-- The number that a text stands for. -/
def ofText? (text : List Char) : Option Number :=
  (Literal.ofText? text).bind Literal.value?

/-! ## Writing -/

/-- The exponents from which on, and up to which, a number is written in positional notation. -/
structure Layout where
  /-- The least positional exponent of the first digit. -/
  least : Int
  /-- The first exponent above it that is written in scientific notation. -/
  bound : Int

/-- Numbers are positional from `10^-5` to below `10^16`. -/
def layout : Layout := ⟨-5, 16⟩

/-- A text of zeros. -/
def zeros (n : Nat) : String :=
  String.ofList (List.replicate n '0')

/-- A decimal in positional notation, with at least one digit on either side of the point. -/
def positional (digits : List Char) (exponent : Int) : String :=
  let point := digits.length + exponent
  if 0 ≤ exponent then String.ofList digits ++ zeros exponent.natAbs ++ ".0"
  else if 0 < point then
    String.ofList (digits.take point.natAbs) ++ "." ++ String.ofList (digits.drop point.natAbs)
  else "0." ++ zeros point.natAbs ++ String.ofList digits

/-- A decimal in scientific notation: one digit, the others behind a point, and the exponent with
its sign. -/
def scientific (digits : List Char) (exponent : Int) : String :=
  let fraction := match digits.tail with
    | [] => ""
    | rest => "." ++ String.ofList rest
  let power : Int := digits.length + exponent - 1
  String.ofList (digits.take 1) ++ fraction ++ "e" ++ (if power < 0 then "-" else "+") ++
    Text.decimal power.natAbs

/-- The text of a double. -/
def doubleText (x : Binary64) : String :=
  let sign := if x.isNegative then "-" else ""
  if x.isZero then sign ++ "0.0" else
    let d := x.shortest
    let digits := Nat.toDigits 10 d.digits
    let first : Int := digits.length + d.exponent - 1
    sign ++ if layout.least ≤ first ∧ first < layout.bound then positional digits d.exponent
      else scientific digits d.exponent

/-- The text of a number. -/
def toText : Number → String
  | int n => (if n < 0 then "-" else "") ++ Text.decimal n.natAbs
  | double x => doubleText x

end SchemaClasses.Number
