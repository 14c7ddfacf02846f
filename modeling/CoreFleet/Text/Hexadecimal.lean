/-!
# Hexadecimal numerals

`digit?` reads a digit of either letter case, and `render` writes a numeral in lower case
with no leading zero.
-/

namespace CoreFleet.Hexadecimal

/-- The value of a hexadecimal digit of either case. -/
def digit? (c : Char) : Option Nat :=
  let n := c.toNat
  if 48 ≤ n ∧ n ≤ 57 then some (n - 48)
  else if 97 ≤ n ∧ n ≤ 102 then some (n - 87)
  else if 65 ≤ n ∧ n ≤ 70 then some (n - 55)
  else none

/-- The digit, in lower case, of a value below sixteen. -/
def digitChar (d : Nat) : Char := if d < 10 then Char.ofNat (48 + d) else Char.ofNat (87 + d)

/-- The digits of `n`, most significant first, with no leading zero. -/
def render (n : Nat) : List Char :=
  if n < 16 then [digitChar n] else render (n / 16) ++ [digitChar (n % 16)]
termination_by n

end CoreFleet.Hexadecimal
