/-!
# Decimal numerals

`digits?` reads a run of ASCII digits, and `natural?` a numeral below a bound : an
optional plus sign and at least one digit, of any number of leading zeros. `integer?`
also takes a minus sign. `render` writes the numeral with no sign and no leading zero,
and `natural?_render` reads it back.
-/

namespace CoreFleet.Numeral

/-- The value of an ASCII digit. -/
def digit? (c : Char) : Option Nat :=
  if 48 ≤ c.toNat ∧ c.toNat ≤ 57 then some (c.toNat - 48) else none

/-- The value of a run of ASCII digits after the digits that gave `acc`. -/
def digitsFrom? : Nat → List Char → Option Nat
  | acc, [] => some acc
  | acc, c :: cs => match digit? c with
    | some d => digitsFrom? (10 * acc + d) cs
    | none => none

/-- The value of a non-empty run of ASCII digits. -/
def digits? : List Char → Option Nat
  | [] => none
  | cs => digitsFrom? 0 cs

/-- The text without one leading plus sign. -/
def unsigned : List Char → List Char
  | '+' :: cs => cs
  | cs => cs

/-- The value of a numeral below `bound`. -/
def natural? (bound : Nat) (cs : List Char) : Option Nat :=
  match digits? (unsigned cs) with
  | some n => if n < bound then some n else none
  | none => none

/-- The value of a numeral that may carry either sign. -/
def integer? : List Char → Option Int
  | '-' :: cs => (digits? cs).map fun n => -(n : Int)
  | cs => (digits? (unsigned cs)).map fun n => (n : Int)

/-- One more than the greatest 32-bit word. -/
abbrev wordBound : Nat := 4294967296

/-- One more than the greatest 64-bit word. -/
abbrev longBound : Nat := 18446744073709551616

/-- The value of a numeral that fits a 32-bit word. -/
def word? (cs : List Char) : Option Nat := natural? wordBound cs

/-- The digit of a value below ten. -/
def digitChar (d : Nat) : Char := Char.ofNat (48 + d)

/-- The digits of `n`, most significant first, with no leading zero. -/
def render (n : Nat) : List Char :=
  if n < 10 then [digitChar n] else render (n / 10) ++ [digitChar (n % 10)]
termination_by n

/-- The numeral of `n` as a string. -/
def text (n : Nat) : String := String.ofList (render n)

/-- The numeral of an integer, with a minus sign in front of a negative one. -/
def signedText (z : Int) : String :=
  match z with
  | .ofNat n => text n
  | .negSucc n => "-" ++ text (n + 1)

/-! ## Reading back -/

theorem digit?_digitChar {d : Nat} (h : d < 10) : digit? (digitChar d) = some d := by
  have : d = 0 ∨ d = 1 ∨ d = 2 ∨ d = 3 ∨ d = 4 ∨ d = 5 ∨ d = 6 ∨ d = 7 ∨ d = 8 ∨ d = 9 := by omega
  rcases this with rfl | rfl | rfl | rfl | rfl | rfl | rfl | rfl | rfl | rfl <;> rfl

theorem digitsFrom?_append (acc : Nat) (xs ys : List Char) :
    digitsFrom? acc (xs ++ ys) = (digitsFrom? acc xs).bind fun n => digitsFrom? n ys := by
  induction xs generalizing acc with
  | nil => rfl
  | cons c cs ih =>
    cases h : digit? c with
    | none => simp [digitsFrom?, h]
    | some d => simp [digitsFrom?, h, ih]

theorem digitsFrom?_render (n : Nat) : digitsFrom? 0 (render n) = some n := by
  induction n using Nat.strongRecOn with
  | _ n ih =>
    rw [render]
    split
    · rename_i h
      simp [digitsFrom?, digit?_digitChar h]
    · rename_i h
      have hd : digit? (digitChar (n % 10)) = some (n % 10) :=
        digit?_digitChar (Nat.mod_lt _ (by omega))
      rw [digitsFrom?_append, ih (n / 10) (by omega)]
      simp only [Option.bind_some, digitsFrom?, hd, Option.some.injEq]
      omega

theorem render_ne_nil (n : Nat) : render n ≠ [] := by
  rw [render]; split <;> simp

theorem unsigned_render (n : Nat) : unsigned (render n) = render n := by
  cases h : render n with
  | nil => exact absurd h (render_ne_nil n)
  | cons c cs =>
    by_cases hc : c = '+'
    · subst hc
      have := digitsFrom?_render n
      rw [h] at this
      simp [digitsFrom?, digit?] at this
    · unfold unsigned
      split
      · simp_all
      · rfl

theorem digits?_render (n : Nat) : digits? (render n) = some n := by
  have := digitsFrom?_render n
  unfold digits?
  split
  · exact absurd ‹_› (render_ne_nil n)
  · exact this

theorem natural?_render {bound n : Nat} (h : n < bound) : natural? bound (render n) = some n := by
  simp [natural?, unsigned_render, digits?_render, h]

end CoreFleet.Numeral
