import SchemaClasses.Binary64

/-!
# The fewest digits that read back

The reals that round to a double `m · 2^q` form an interval around it, whose ends belong to it
when `m` is even. `shortest` looks for the coarsest decimal grid `10^k · ℤ` with a point in that
interval and takes the grid point nearest to the double. If any point of a grid lies in the
interval then so does one of the two neighbours of the double on that grid, so it is enough to
test these two.
-/

namespace SchemaClasses.Binary64

/-- The decimal number `digits · 10^exponent`. -/
structure Decimal where
  /-- The digits, as one number. -/
  digits : Nat
  /-- The power of ten of the last digit. -/
  exponent : Int
  deriving DecidableEq, Repr

/-- The double and the interval that rounds to it, all three over one denominator. -/
structure Neighbourhood where
  /-- Numerator of the lower end. -/
  low : Nat
  /-- Numerator of the double. -/
  mid : Nat
  /-- Numerator of the upper end. -/
  high : Nat
  /-- The common denominator. -/
  denominator : Nat
  /-- Whether the ends belong to the interval. -/
  closed : Bool

/-- The interval of a magnitude `m · 2^q`, in quarters of `2^q`: it ends half a step above and
half a step below, where the step below a power of two is half as long. -/
def neighbourhood (x : Binary64) : Neighbourhood :=
  let m := x.mantissa
  let below := if m = Nat.pow 2 52 ∧ -1074 < x.exponent then 1 else 2
  let q := x.exponent - 2
  let unit := if q < 0 then 1 else Nat.pow 2 q.natAbs
  { low := (4 * m - below) * unit
    mid := 4 * m * unit
    high := (4 * m + 2) * unit
    denominator := if q < 0 then Nat.pow 2 q.natAbs else 1
    closed := m % 2 = 0 }

/-- Whether `digits · 10^k` lies in the interval. -/
def Neighbourhood.holds (n : Neighbourhood) (d : Decimal) : Bool :=
  let power := Nat.pow 10 d.exponent.natAbs
  let point := d.digits * n.denominator * (if d.exponent < 0 then 1 else power)
  let unit := if d.exponent < 0 then power else 1
  if n.closed then n.low * unit ≤ point && point ≤ n.high * unit
  else n.low * unit < point && point < n.high * unit

/-- The point of the grid `10^k` in the interval that is nearest to the double, an exact tie going
to the even one. -/
def Neighbourhood.onGrid? (n : Neighbourhood) (k : Int) : Option Decimal :=
  let numerator := n.mid * (if k < 0 then Nat.pow 10 k.natAbs else 1)
  let unit := n.denominator * (if k < 0 then 1 else Nat.pow 10 k.natAbs)
  let floor := numerator / unit
  let rest := numerator % unit
  let lower : Decimal := ⟨floor, k⟩
  let upper : Decimal := ⟨floor + 1, k⟩
  match n.holds lower, n.holds upper with
  | true, true =>
    if 2 * rest < unit || (2 * rest == unit && floor % 2 == 0) then some lower else some upper
  | true, false => some lower
  | false, true => some upper
  | false, false => none

/-- The number of decimal digits of a natural number. -/
def digitCount (n : Nat) : Nat :=
  (Nat.toDigits 10 n).length

/-- The shortest decimal that reads back as this magnitude, and of the shortest the nearest. -/
def shortest (x : Binary64) : Decimal :=
  let n := x.neighbourhood
  let top : Int :=
    if n.denominator ≤ n.mid then digitCount (n.mid / n.denominator)
    else 1 - digitCount (n.denominator / n.mid)
  ((List.range 20).findSome? fun step : Nat => n.onGrid? (top - (step : Int))).getD ⟨0, 0⟩

end SchemaClasses.Binary64
