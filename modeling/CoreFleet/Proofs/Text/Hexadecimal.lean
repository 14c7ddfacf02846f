import CoreFleet.Text.Hexadecimal
import Mathlib.Data.List.Forall2
import Mathlib.Data.Nat.Digits.Defs

/-!
# What hexadecimal numerals denote

`Denotes cs n` says which texts are hexadecimal numerals of `n` : its digits, the most significant
one first and each of either letter case, after any number of zeros. A text is a numeral of one
number at most (`Denotes.unique`).
-/

namespace CoreFleet.Hexadecimal

/-- The character is the hexadecimal digit of value `d`, in lower or upper case. -/
def IsDigit (c : Char) (d : Nat) : Prop :=
  d < 16 ∧ (c = digitChar d ∨ c = (digitChar d).toUpper)

instance (c : Char) (d : Nat) : Decidable (IsDigit c d) := inferInstanceAs (Decidable (_ ∧ _))

/-- The text is a hexadecimal numeral of `n` : one digit or more, the most significant one first. -/
def Denotes (cs : List Char) (n : Nat) : Prop :=
  cs ≠ [] ∧ ∃ ds, List.Forall₂ IsDigit cs ds ∧ n = Nat.ofDigits 16 ds.reverse

theorem digit?_eq_some_iff {c : Char} {d : Nat} : digit? c = some d ↔ IsDigit c d := by
  constructor
  · -- all digits are below 103 among the characters
    have hall : ∀ n < 103, ∀ d ∈ digit? (Char.ofNat n), IsDigit (Char.ofNat n) d := by decide
    intro h
    have hlt : c.toNat < 103 := by
      simp only [digit?] at h
      repeat' split at h
      all_goals first | omega | cases h
    have hd := hall c.toNat hlt d
    rw [Char.ofNat_toNat] at hd
    exact hd h
  · have hall : ∀ d < 16,
        digit? (digitChar d) = some d ∧ digit? (digitChar d).toUpper = some d := by decide
    rintro ⟨hd, rfl | rfl⟩
    · exact (hall d hd).1
    · exact (hall d hd).2

theorem IsDigit.unique {c : Char} {d d' : Nat} (h : IsDigit c d) (h' : IsDigit c d') : d = d' :=
  Option.some.inj ((digit?_eq_some_iff.2 h).symm.trans (digit?_eq_some_iff.2 h'))

/-- A text is a numeral of one number at most. -/
theorem Denotes.unique {cs : List Char} {n n' : Nat} (h : Denotes cs n) (h' : Denotes cs n') :
    n = n' := by
  obtain ⟨-, ds, hds, rfl⟩ := h
  obtain ⟨-, ds', hds', rfl⟩ := h'
  have hunique : Relator.RightUnique IsDigit := fun _ _ _ => IsDigit.unique
  rw [hunique.forall₂ hds hds']

end CoreFleet.Hexadecimal
