import CoreFleet.Text.Numeral
import Mathlib.Data.Nat.Digits.Defs
import Mathlib.Tactic.Ring

/-!
# What numerals denote

`Denotes cs n` says which texts are numerals of `n`, without the reader : the decimal digits of
`n`, after any number of zeros, with or without one plus sign in front. `word?_eq_some_iff` says
that the reader of 32-bit words accepts exactly the numerals of numbers that fit a word.
-/

namespace CoreFleet.Numeral

/-- The text is a numeral of `n` : one ASCII digit or more, the most significant one first, with
or without a plus sign in front. -/
def Denotes (cs : List Char) (n : Nat) : Prop :=
  ∃ ds : List Nat, ds ≠ [] ∧ (∀ d ∈ ds, d < 10) ∧ n = Nat.ofDigits 10 ds.reverse ∧
    (cs = ds.map digitChar ∨ cs = '+' :: ds.map digitChar)

theorem digit?_eq_some_iff {c : Char} {d : Nat} : digit? c = some d ↔ d < 10 ∧ c = digitChar d := by
  constructor
  · intro h
    unfold digit? at h
    split at h
    case isTrue hc =>
      obtain rfl := Option.some.inj h
      refine ⟨by omega, ?_⟩
      rw [digitChar, Nat.add_sub_cancel' hc.1, Char.ofNat_toNat]
    case isFalse => cases h
  · rintro ⟨hd, rfl⟩
    exact digit?_digitChar hd

/-- One more digit multiplies what came before by ten. -/
theorem value_cons (acc d : Nat) (ds : List Nat) :
    acc * 10 ^ (d :: ds).length + Nat.ofDigits 10 (d :: ds).reverse =
      (10 * acc + d) * 10 ^ ds.length + Nat.ofDigits 10 ds.reverse := by
  rw [List.reverse_cons, Nat.ofDigits_append, Nat.ofDigits_singleton, List.length_reverse,
    List.length_cons, Nat.pow_succ]
  ring

/-- A run of digits is read as the number it stands for, after the digits read before. -/
theorem digitsFrom?_eq_some_iff {cs : List Char} {acc n : Nat} :
    digitsFrom? acc cs = some n ↔ ∃ ds : List Nat, (∀ d ∈ ds, d < 10) ∧ cs = ds.map digitChar ∧
      n = acc * 10 ^ ds.length + Nat.ofDigits 10 ds.reverse := by
  induction cs generalizing acc with
  | nil =>
    constructor
    · intro h
      obtain rfl := Option.some.inj h
      exact ⟨[], by simp, rfl, by simp⟩
    · rintro ⟨ds, -, hds, rfl⟩
      obtain rfl := List.map_eq_nil_iff.1 hds.symm
      simp [digitsFrom?]
  | cons c cs ih =>
    constructor
    · intro h
      cases hd : digit? c with
      | none => simp [digitsFrom?, hd] at h
      | some d =>
        obtain ⟨hlt, rfl⟩ := digit?_eq_some_iff.1 hd
        obtain ⟨ds, hds, rfl, rfl⟩ := ih.1 (by simpa [digitsFrom?, hd] using h)
        exact ⟨d :: ds, by simpa using ⟨hlt, hds⟩, rfl, (value_cons acc d ds).symm⟩
    · rintro ⟨ds, hds, hcs, rfl⟩
      cases ds with
      | nil => cases hcs
      | cons d ds =>
        obtain ⟨rfl, rfl⟩ := List.cons.inj hcs
        obtain ⟨hlt, hds⟩ := List.forall_mem_cons.1 hds
        simp only [digitsFrom?, digit?_digitChar hlt]
        exact ih.2 ⟨ds, hds, rfl, value_cons acc d ds⟩

theorem digits?_eq_some_iff {cs : List Char} {n : Nat} :
    digits? cs = some n ↔ ∃ ds : List Nat, ds ≠ [] ∧ (∀ d ∈ ds, d < 10) ∧
      n = Nat.ofDigits 10 ds.reverse ∧ cs = ds.map digitChar := by
  cases cs with
  | nil =>
    simp only [digits?, reduceCtorEq, false_iff]
    rintro ⟨ds, hne, -, -, hds⟩
    exact hne (List.map_eq_nil_iff.1 hds.symm)
  | cons c cs =>
    rw [digits?, digitsFrom?_eq_some_iff]
    · constructor
      · rintro ⟨ds, hds, hcs, rfl⟩
        refine ⟨ds, ?_, hds, by simp, hcs⟩
        rintro rfl
        cases hcs
      · rintro ⟨ds, -, hds, rfl, hcs⟩
        exact ⟨ds, hds, hcs, by simp⟩
    · nofun

/-- No digit is a plus sign, so that a numeral has at most one. -/
theorem unsigned_eq_digits_iff {cs : List Char} {ds : List Nat} (hds : ∀ d ∈ ds, d < 10) :
    unsigned cs = ds.map digitChar ↔ cs = ds.map digitChar ∨ cs = '+' :: ds.map digitChar := by
  have hplus (rest : List Char) : '+' :: rest ≠ ds.map digitChar := by
    intro h
    obtain ⟨d, hd, hc⟩ := List.mem_map.1 (h ▸ List.mem_cons_self)
    have := digit?_digitChar (hds d hd)
    rw [hc] at this
    cases this
  unfold unsigned
  split
  case h_1 rest =>
    simp only [List.cons.injEq, true_and]
    exact ⟨Or.inr, fun h => h.resolve_left (hplus rest)⟩
  case h_2 hsign => exact ⟨Or.inl, fun h => h.resolve_right fun h' => hsign _ h'⟩

/-- A text is read as a word if and only if it is a numeral of it. -/
theorem word?_eq_some_iff {cs : List Char} {n : Nat} :
    word? cs = some n ↔ Denotes cs n ∧ n < wordBound := by
  have hdigits : digits? (unsigned cs) = some n ↔ Denotes cs n := by
    rw [digits?_eq_some_iff]
    refine exists_congr fun ds => and_congr_right fun _ => and_congr_right fun hds => ?_
    rw [unsigned_eq_digits_iff hds]
  rw [← hdigits, word?, natural?]
  cases digits? (unsigned cs) with
  | none => simp
  | some m =>
    by_cases hm : m < wordBound
    · simp only [hm, if_true, Option.some.injEq]
      exact ⟨fun h => ⟨h, h ▸ hm⟩, And.left⟩
    · simp only [hm, if_false, reduceCtorEq, Option.some.injEq, false_iff]
      rintro ⟨rfl, h⟩
      exact hm h

end CoreFleet.Numeral
