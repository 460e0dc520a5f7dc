/-!
# Double-precision numbers, exactly

A finite double is a sign and a magnitude `m · 2^q`, packed in 64 bits. Arithmetic is done on the
magnitudes as fractions of natural numbers and rounded once, to the nearest double with ties to
the even one, by `ofFraction?`. So every operation here is computed in exact integer arithmetic
and can be evaluated and reasoned about bit by bit.
-/

namespace SchemaClasses

/-- A double, by its bit pattern: sign, eleven bits of exponent, 52 bits of fraction. -/
structure Binary64 where
  /-- The 64 bits. -/
  bits : UInt64
  deriving DecidableEq, Repr, Inhabited

namespace Binary64

/-- A double packed from its sign and the 63 bits of its magnitude. -/
def pack (negative : Bool) (magnitude : Nat) : Binary64 :=
  ⟨UInt64.ofNat (if negative then Nat.pow 2 63 + magnitude else magnitude)⟩

/-- Zero with the given sign. -/
def zero (negative : Bool) : Binary64 :=
  pack negative 0

/-- Whether the sign bit is set. -/
def isNegative (x : Binary64) : Bool :=
  Nat.pow 2 63 ≤ x.bits.toNat

/-- The 63 bits below the sign. -/
def magnitude (x : Binary64) : Nat :=
  x.bits.toNat % Nat.pow 2 63

/-- Whether the number is zero, of either sign. -/
def isZero (x : Binary64) : Bool :=
  x.magnitude = 0

/-- The same number with the other sign. -/
def neg (x : Binary64) : Binary64 :=
  pack (!x.isNegative) x.magnitude

/-- The natural number `m` of the magnitude `m · 2^q`. -/
def mantissa (x : Binary64) : Nat :=
  if x.magnitude < Nat.pow 2 52 then x.magnitude else x.magnitude % Nat.pow 2 52 + Nat.pow 2 52

/-- The exponent `q` of the magnitude `m · 2^q`. -/
def exponent (x : Binary64) : Int :=
  if x.magnitude < Nat.pow 2 52 then -1074 else (x.magnitude / Nat.pow 2 52 : Nat) - 1075

/-- Two numbers are the same if their bits are, or if both are zero. -/
def same (x y : Binary64) : Bool :=
  x = y || (x.isZero && y.isZero)

/-! ## Rounding a fraction -/

/-- `n / d` rounded to a natural number, a half to the even neighbour. -/
def roundHalfEven (n d : Nat) : Nat :=
  let q := n / d
  let r := n % d
  if 2 * r > d || (2 * r == d && q % 2 == 1) then q + 1 else q

/-- The numerator and denominator of `n / d / 2^q`. -/
def scale (n d : Nat) (q : Int) : Nat × Nat :=
  if q < 0 then (n * Nat.pow 2 q.natAbs, d) else (n, d * Nat.pow 2 q.natAbs)

/-- The exponent of the double nearest to `n / d`: the least one, not below that of the
subnormal numbers, whose mantissa takes at most 53 bits. -/
def exponentFor (n d : Nat) : Int :=
  let low : Int := (Nat.log2 n : Int) - (Nat.log2 d : Int) - 53
  let (n', d') := scale n d low
  max (if n' / d' < Nat.pow 2 53 then low else low + 1) (-1074)

/-- The double nearest to `n / d` with the given sign, if it is finite. -/
def ofFraction? (negative : Bool) (n d : Nat) : Option Binary64 :=
  if n = 0 then some (zero negative) else
    let q := exponentFor n d
    let (n', d') := scale n d q
    let magnitude := (q + 1074).toNat * Nat.pow 2 52 + roundHalfEven n' d'
    if magnitude < 2047 * Nat.pow 2 52 then some (pack negative magnitude) else none

/-- The magnitude as a fraction. -/
def toFraction (x : Binary64) : Nat × Nat :=
  if x.exponent < 0 then (x.mantissa, Nat.pow 2 x.exponent.natAbs)
  else (x.mantissa * Nat.pow 2 x.exponent.natAbs, 1)

/-- The product, if it is finite. -/
def mul? (x y : Binary64) : Option Binary64 :=
  let (a, b) := x.toFraction
  let (c, d) := y.toFraction
  ofFraction? (x.isNegative != y.isNegative) (a * c) (b * d)

/-- The quotient by a number other than zero, if it is finite. -/
def div? (x y : Binary64) : Option Binary64 :=
  let (a, b) := x.toFraction
  let (c, d) := y.toFraction
  if c = 0 then none else ofFraction? (x.isNegative != y.isNegative) (a * d) (b * c)

/-- The double nearest to a natural number, if it is finite. -/
def ofNat? (n : Nat) : Option Binary64 :=
  ofFraction? false n 1

example : ofFraction? false 1 10 = some ⟨0x3fb999999999999a⟩ := by decide
example : ofFraction? true 3 2 = some ⟨0xbff8000000000000⟩ := by decide
example : ofFraction? false (2 ^ 53 + 1) 1 = some ⟨0x4340000000000000⟩ := by decide
example : ofFraction? false 1 (2 ^ 1074) = some ⟨1⟩ := by decide +kernel
example : ofFraction? false (2 ^ 1024) 1 = none := by decide +kernel

end Binary64

end SchemaClasses
