import CoreFleet.Decimal.Shortest

/-!
# Spellings of decimals

A spelling says how a shortest decimal is written : which powers of ten are written out in
positional form ; the others are written with an exponent.
-/

namespace CoreFleet.Decimal

/-- A way to write decimals. -/
structure Spelling where
  /-- The least exponent of the leading digit that is written in positional form. -/
  leastPositional : Int
  /-- The greatest exponent of the leading digit that is written in positional form. -/
  greatestPositional : Int
  /-- What follows a whole number in positional form. -/
  wholeMark : List Char

namespace Spelling

/-- Digits with the point after the first `point` of them, zeros filled in. -/
def positional (p : Spelling) (digits : List Char) (point : Int) : List Char :=
  if point ≤ 0 then '0' :: '.' :: List.replicate (-point).toNat '0' ++ digits
  else
    let whole := point.toNat
    if digits.length ≤ whole then
      digits ++ List.replicate (whole - digits.length) '0' ++ p.wholeMark
    else digits.take whole ++ '.' :: digits.drop whole

/-- Digits with the point after the first one, and an exponent with its sign. -/
def scientific (digits : List Char) (exponent : Int) : List Char :=
  let mantissa := match digits with
    | d :: e :: rest => d :: '.' :: e :: rest
    | short => short
  let sign := if exponent < 0 then '-' else '+'
  mantissa ++ 'e' :: sign :: Numeral.render exponent.natAbs

/-- Writes a decimal. -/
def spell (p : Spelling) (s : Scientific) : List Char :=
  let digits := Numeral.render s.digits
  let leading := s.exponent + digits.length - 1
  if p.leastPositional ≤ leading ∧ leading ≤ p.greatestPositional then
    p.positional digits (leading + 1)
  else scientific digits leading

/-- The bit of the sign in the binary format of 64 bits. -/
def signUnit : Nat := 9223372036854775808

/-- Writes the shortest decimal of a finite number, given by the bits of its binary format
of 64 bits. -/
def spellBits (p : Spelling) (bits : Nat) : List Char :=
  let magnitude := bits % signUnit
  let unsigned := if magnitude = 0 then '0' :: p.wholeMark
    else p.spell (shortest (roundingOfBits magnitude))
  if bits < signUnit then unsigned else '-' :: unsigned

end Spelling

end CoreFleet.Decimal
