import CoreFleet.Json.Fault

/-!
# Numbers of documents

A number is read in two steps. `Number.read` takes the longest numeral off a text : a
whole part with no leading zero, then perhaps a fraction and an exponent. `Number.found`
gives its meaning. A numeral with neither fraction nor exponent is an integer, as long as
its magnitude fits a 64-bit word and, below zero, the integers of 64 bits ; every other
numeral is a decimal in binary floating point, for which the digits that fit a 64-bit word
are kept and scaled by a power of ten.
-/

namespace CoreFleet.Json

/-- A numeral by its parts. Digits are given by their values. -/
structure Number where
  negative : Bool
  whole : List Nat
  fraction : List Nat
  /-- The sign of the exponent, negative if set, and its digits. -/
  exponent : Option (Bool × List Nat)
  deriving DecidableEq, Repr

namespace Number

/-! ## Spelling -/

/-- Takes the digits off the front of a text. -/
def digits : List Char → List Nat × List Char
  | [] => ([], [])
  | c :: cs =>
    match Numeral.digit? c with
    | some d => (d :: (digits cs).1, (digits cs).2)
    | none => ([], c :: cs)

/-- Takes digits off the front of a text, at least one. -/
def someDigits (cs : List Char) : Except Fault (List Nat × List Char) :=
  match digits cs with
  | ([], []) => .error .incomplete
  | ([], _ :: _) => .error .malformed
  | found => .ok found

/-- The whole part : a zero alone, or digits of which the first is not zero. -/
def wholePart (cs : List Char) : Except Fault (List Nat × List Char) :=
  match someDigits cs with
  | .ok (0 :: _ :: _, _) => .error .malformed
  | found => found

/-- The fraction, if a point follows. -/
def fractionPart : List Char → Except Fault (List Nat × List Char)
  | '.' :: cs => someDigits cs
  | cs => .ok ([], cs)

/-- The sign of an exponent, negative if set. -/
def exponentSign : List Char → Bool × List Char
  | '+' :: cs => (false, cs)
  | '-' :: cs => (true, cs)
  | cs => (false, cs)

/-- The exponent, if its mark follows. -/
def exponentPart : List Char → Except Fault (Option (Bool × List Nat) × List Char)
  | c :: cs =>
    if c = 'e' ∨ c = 'E' then
      match someDigits (exponentSign cs).2 with
      | .ok (ds, rest) => .ok (some ((exponentSign cs).1, ds), rest)
      | .error e => .error e
    else .ok (none, c :: cs)
  | [] => .ok (none, [])

/-- The sign of a numeral, negative if set. -/
def sign : List Char → Bool × List Char
  | '-' :: cs => (true, cs)
  | cs => (false, cs)

/-- Takes a numeral off the front of a text. -/
def read (cs : List Char) : Except Fault (Number × List Char) := do
  let (negative, cs) := sign cs
  let (whole, cs) ← wholePart cs
  let (fraction, cs) ← fractionPart cs
  let (exponent, cs) ← exponentPart cs
  return (⟨negative, whole, fraction, exponent⟩, cs)

/-! ## Meaning -/

/-- Appends digits to a number as long as a 64-bit word can hold it, and gives the digits
that are left. -/
def gather : Nat → List Nat → Nat × List Nat
  | n, [] => (n, [])
  | n, d :: ds => if 10 * n + d < Numeral.longBound then gather (10 * n + d) ds else (n, d :: ds)

/-- The greatest power of ten in binary floating point. -/
def greatestPower : Nat := 308

/-- A power of ten in binary floating point. -/
def power (k : Nat) : Float := Float.ofScientific 1 false k

/-- Divides by a power of ten, in steps if it is beyond the greatest one. -/
def scaleDown (x : Float) (k : Nat) : Float :=
  if k ≤ greatestPower then x / power k
  else if x == 0 then x
  else scaleDown (x / power greatestPower) (k - greatestPower)
termination_by k
decreasing_by simp only [greatestPower] at *; omega

/-- Multiplies by a power of ten, if the product is finite. -/
def scaleUp? (x : Float) (k : Nat) : Option Float :=
  if k ≤ greatestPower then
    if (x * power k).isInf then none else some (x * power k)
  else if x == 0 then some x
  else none

/-- A significand scaled by a power of ten, if it is finite. -/
def scale? (significand : Nat) (exponent : Int) : Option Float :=
  let x := significand.toUInt64.toFloat
  match exponent with
  | .ofNat k => scaleUp? x k
  | .negSucc k => some (scaleDown x (k + 1))

/-- The greatest exponent that is computed with. -/
def greatestExponent : Nat := 2147483647

/-- The magnitude of a numeral as a decimal, if it is finite. An exponent too great to
compute with makes a number infinite or zero. -/
def magnitude? (n : Number) : Option Float :=
  let (w, dropped) := gather 0 n.whole
  let (significand, left) := gather w n.fraction
  let shift : Int := dropped.length - (n.fraction.length - left.length : Nat)
  match n.exponent with
  | none => scale? significand shift
  | some (negative, ds) =>
    let e := ds.foldl (fun n d => 10 * n + d) 0
    if e ≤ greatestExponent then
      scale? significand (if negative then shift - e else shift + e)
    else if significand ≠ 0 ∧ !negative then none
    else some 0

/-- The greatest magnitude of an integer below zero. -/
def greatestNegated : Nat := 9223372036854775808

/-- The meaning of a numeral, unless it is out of range. -/
def found (n : Number) : Except Fault Found :=
  match n.fraction, n.exponent, gather 0 n.whole with
  | [], none, (w, []) =>
    if !n.negative then .ok (.integer w)
    else if 0 < w ∧ w ≤ greatestNegated then .ok (.integer (-w))
    else .ok (.decimal (-w.toUInt64.toFloat))
  | _, _, _ =>
    match n.magnitude? with
    | some x => .ok (.decimal (if n.negative then -x else x))
    | none => .error .malformed

end Number

end CoreFleet.Json
