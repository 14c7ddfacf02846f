import CoreFleet.Text.Numeral

/-!
# Shortest decimals

A finite binary number stands for all the reals that round to it, an interval around its
value (`Rounding`). Its shortest decimal is the one with the fewest digits inside that
interval, and of two with that many digits the one nearer to the value, or the one with
the even last digit if both are equally near. `shortest` finds it by trying the grids of
one to seventeen digits : if a grid has a point in the interval, one of the two neighbours
of the value on it is such a point. All arithmetic is on natural numbers.
-/

namespace CoreFleet.Decimal

/-- The reals that round to one positive number : its value and the ends of the interval,
all over a common denominator. -/
structure Rounding where
  value : Nat
  lower : Nat
  upper : Nat
  denominator : Nat
  /-- The ends belong to the interval. -/
  closed : Bool
  deriving DecidableEq, Repr

namespace Rounding

/-- The interval of `mantissa * 2 ^ exponent`. Below the least mantissa of a binade that
is not the lowest one, numbers lie twice as dense. A half way goes to the even mantissa. -/
def ofBinary (mantissa : Nat) (exponent : Int) (denseBelow : Bool) : Rounding :=
  let below := if denseBelow then 1 else 2
  let scale := Nat.pow 2 (exponent - 2).toNat
  { value := 4 * mantissa * scale
    lower := (4 * mantissa - below) * scale
    upper := (4 * mantissa + 2) * scale
    denominator := Nat.pow 2 (2 - exponent).toNat
    closed := mantissa % 2 = 0 }

/-- The interval measured in units of `10 ^ k`. -/
def inUnits (r : Rounding) (k : Int) : Rounding :=
  let up := Nat.pow 10 (-k).toNat
  { r with
    value := r.value * up, lower := r.lower * up, upper := r.upper * up
    denominator := r.denominator * Nat.pow 10 k.toNat }

/-- The whole number `d` lies in the interval. -/
def holds (r : Rounding) (d : Nat) : Bool :=
  if r.closed then r.lower ≤ d * r.denominator && d * r.denominator ≤ r.upper
  else r.lower < d * r.denominator && d * r.denominator < r.upper

/-- The whole number in the interval that is nearest to the value, of the two next to it. -/
def nearest? (r : Rounding) : Option Nat :=
  let d := r.value / r.denominator
  match r.holds d, r.holds (d + 1) with
  | true, true =>
    let below := r.value - d * r.denominator
    let above := (d + 1) * r.denominator - r.value
    some (if below < above || (below = above && d % 2 = 0) then d else d + 1)
  | true, false => some d
  | false, true => some (d + 1)
  | false, false => none

/-- The exponent of the power of ten at or below the value. -/
def magnitude (r : Rounding) : Int :=
  if r.denominator ≤ r.value then
    ((Numeral.render (r.value / r.denominator)).length : Int) - 1
  else -((Numeral.render ((r.denominator - 1) / r.value)).length : Int)

/-- The first of the grids of `n`, `n + 1`, … digits, `fuel` in number, that has a point
in the interval : the point and the exponent of its unit. -/
def search (r : Rounding) (n : Nat) : Nat → Nat × Int
  | 0 => (r.value / r.denominator, 0)
  | fuel + 1 =>
    let k := r.magnitude + 1 - n
    match (r.inUnits k).nearest? with
    | some d => (d, k)
    | none => search r (n + 1) fuel

end Rounding

/-- A decimal `digits * 10 ^ exponent`. -/
structure Scientific where
  digits : Nat
  exponent : Int
  deriving DecidableEq, Repr

/-- The decimal with no zero at the end of its digits. -/
def Scientific.trimmed (digits : Nat) (exponent : Int) : Scientific :=
  if h : digits ≠ 0 ∧ digits % 10 = 0 then trimmed (digits / 10) (exponent + 1)
  else ⟨digits, exponent⟩
termination_by digits
decreasing_by omega

/-- The number of digits that suffices for every binary number of 53 bits. -/
def enoughDigits : Nat := 17

/-- The shortest decimal in an interval. -/
def shortest (r : Rounding) : Scientific :=
  let (d, k) := r.search 1 enoughDigits
  .trimmed d k

/-- One unit of the exponent in the binary format of 64 bits : the fraction lies below. -/
def exponentUnit : Nat := 4503599627370496

/-- The interval of a positive finite number in the binary format of 64 bits, whose lower
63 bits are given. -/
def roundingOfBits (bits : Nat) : Rounding :=
  let fraction := bits % exponentUnit
  let biased := bits / exponentUnit
  if biased = 0 then .ofBinary fraction (-1074) false
  else .ofBinary (exponentUnit + fraction) ((biased : Int) - 1075) (fraction = 0 && biased ≠ 1)

end CoreFleet.Decimal
