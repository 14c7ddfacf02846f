import CoreFleet.CoreSet.Text
import CoreFleet.Proofs.Text.Hexadecimal
import Mathlib.Data.Nat.BitIndices

/-!
# What core masks denote

A core mask is a hexadecimal numeral, maybe after one `0x` or `0X` (`Unprefixed`). It is read if and
only if it denotes a number whose one bits all stand for identifiers that there may be, and then the
core set has the positions of these bits (`mask_denotes`).

The digits are read from the last one to the first. `bits?_eq_some_iff` says what is read of them
from a position on, by induction on the digits : the bits of a digit stand below those of the digits
before it (`bitIndices_ofDigits_cons`). Identifiers are 32-bit words, to which positions are cut,
but a mask must have more than `2 ^ 30` digits before two positions are cut to one word.
-/

namespace CoreFleet.CoreSet

open Hexadecimal (IsDigit Denotes)

variable {text rest cs : List Char} {ids : List Nat} {at4 digit n : Nat}

/-! ## The text without its prefix -/

/-- `rest` is the text without the `0x` or `0X` that may stand in front of it. -/
inductive Unprefixed : List Char → List Char → Prop
  | lower (cs : List Char) : Unprefixed ('0' :: 'x' :: cs) cs
  | upper (cs : List Char) : Unprefixed ('0' :: 'X' :: cs) cs
  | plain (cs : List Char) (lower : ¬['0', 'x'] <+: cs) (upper : ¬['0', 'X'] <+: cs) :
    Unprefixed cs cs

theorem maskDigits_eq_iff : maskDigits text = rest ↔ Unprefixed text rest := by
  constructor
  · rintro rfl
    unfold maskDigits
    split
    case h_1 => exact .lower _
    case h_2 => exact .upper _
    case h_3 cs hlower hupper =>
      refine .plain _ ?_ ?_
      · rintro ⟨cs, rfl⟩
        exact hlower cs rfl
      · rintro ⟨cs, rfl⟩
        exact hupper cs rfl
  · intro h
    cases h with
    | lower => rfl
    | upper => rfl
    | plain _ hlower hupper =>
      unfold maskDigits
      split
      case h_1 cs => exact absurd ⟨cs, rfl⟩ hlower
      case h_2 cs => exact absurd ⟨cs, rfl⟩ hupper
      case h_3 => rfl

theorem length_maskDigits_le (text : List Char) : (maskDigits text).length ≤ text.length := by
  unfold maskDigits
  split
  · exact Nat.le_add_right _ 2
  · exact Nat.le_add_right _ 2
  · exact Nat.le_refl _

/-! ## Digits -/

theorem sorted_bitIndices (n : Nat) : Sorted n.bitIndices := Nat.bitIndices_sorted.pairwise

theorem mem_filter_testBit {b : Nat} :
    b ∈ ([0, 1, 2, 3].filter fun b => digit.testBit b) ↔ b < 4 ∧ digit.testBit b := by
  rw [List.mem_filter]
  refine and_congr_left fun _ => ?_
  simp only [List.mem_cons, List.not_mem_nil, or_false]
  omega

/-- Positions that fit a word are not cut. -/
theorem digitBits_eq (hword : at4 + 4 ≤ Numeral.wordBound) :
    digitBits at4 digit = ([0, 1, 2, 3].filter fun b => digit.testBit b).map (at4 + ·) := by
  refine List.map_congr_left fun b hb => Nat.mod_eq_of_lt ?_
  have hsmall := (mem_filter_testBit.1 hb).1
  omega

/-- The one bits of a digit stand below those of the digits before it. -/
theorem bitIndices_ofDigits_cons (hdigit : digit < 16) (ds : List Nat) :
    (Nat.ofDigits 16 (digit :: ds)).bitIndices =
      ([0, 1, 2, 3].filter fun b => digit.testBit b) ++
        (Nat.ofDigits 16 ds).bitIndices.map (4 + ·) := by
  have hsorted : Sorted (([0, 1, 2, 3].filter fun b => digit.testBit b) ++
      (Nat.ofDigits 16 ds).bitIndices.map (4 + ·)) := by
    refine List.pairwise_append.2 ⟨?_, ?_, fun a ha b hb => ?_⟩
    · exact (by decide : [0, 1, 2, 3].Pairwise (· < ·)).filter _
    · exact (sorted_bitIndices _).map _ fun a b hab => Nat.add_lt_add_left hab 4
    · obtain ⟨b, -, rfl⟩ := List.mem_map.1 hb
      exact Nat.lt_add_right b (mem_filter_testBit.1 ha).1
  refine List.Pairwise.eq_of_mem_iff (sorted_bitIndices _) hsorted fun b => ?_
  have hbit : (digit + 16 * Nat.ofDigits 16 ds).testBit b =
      if b < 4 then digit.testBit b else (Nat.ofDigits 16 ds).testBit (b - 4) := by
    rw [Nat.add_comm]
    exact @Nat.testBit_two_pow_mul_add _ digit 4 hdigit b
  rw [Nat.mem_bitIndices, Nat.ofDigits_cons, hbit, List.mem_append,
    mem_filter_testBit, List.mem_map]
  split
  case isTrue hb =>
    constructor
    · exact fun h => Or.inl ⟨hb, h⟩
    · rintro (⟨-, h⟩ | ⟨b', -, rfl⟩)
      · exact h
      · omega
  case isFalse hb =>
    constructor
    · exact fun h => Or.inr ⟨b - 4, Nat.mem_bitIndices.2 h, by omega⟩
    · rintro (⟨hlt, -⟩ | ⟨b', h, rfl⟩)
      · exact absurd hlt hb
      · rw [Nat.add_sub_cancel_left]
        exact Nat.mem_bitIndices.1 h

/-- Digits, from the least significant one on, are read as the positions of the one bits of their
number, if these are identifiers that there may be. -/
theorem bits?_eq_some_iff (hword : at4 + 4 * cs.length ≤ Numeral.wordBound) :
    bits? at4 cs = some ids ↔ ∃ ds, List.Forall₂ IsDigit cs ds ∧
      ids = (Nat.ofDigits 16 ds).bitIndices.map (at4 + ·) ∧ ∀ id ∈ ids, id < maxLcores := by
  induction cs generalizing at4 ids with
  | nil =>
    simp only [bits?, Option.some.injEq, List.forall₂_nil_left_iff, exists_eq_left,
      Nat.ofDigits_nil, Nat.bitIndices_zero, List.map_nil]
    constructor
    · rintro rfl
      exact ⟨rfl, nofun⟩
    · exact fun h => h.1.symm
  | cons c cs ih =>
    rw [List.length_cons] at hword
    have hmap (digit : Nat) (ds : List Nat) (hdigit : digit < 16) :
        (Nat.ofDigits 16 (digit :: ds)).bitIndices.map (at4 + ·) =
          digitBits at4 digit ++ (Nat.ofDigits 16 ds).bitIndices.map (at4 + 4 + ·) := by
      rw [bitIndices_ofDigits_cons hdigit, digitBits_eq (by omega), List.map_append, List.map_map]
      simp only [Function.comp_def, Nat.add_assoc]
    rw [bits?]
    constructor
    · intro h
      split at h
      case h_1 digit hdigit =>
        split at h
        case isTrue hbounded =>
          obtain ⟨later, hlater, rfl⟩ := Option.map_eq_some_iff.1 h
          obtain ⟨ds, hds, rfl, hlt⟩ := (ih (by omega)).1 hlater
          have hdigit := Hexadecimal.digit?_eq_some_iff.1 hdigit
          refine ⟨digit :: ds, .cons hdigit hds, (hmap digit ds hdigit.1).symm, ?_⟩
          exact List.forall_mem_append.2 ⟨by simpa using hbounded, hlt⟩
        case isFalse => cases h
      case h_2 => cases h
    · rintro ⟨_, hall, rfl, hlt⟩
      obtain ⟨digit, ds, hdigit, hds, rfl⟩ := List.forall₂_cons_left_iff.1 hall
      rw [hmap digit ds hdigit.1, List.forall_mem_append] at hlt
      have hbounded : (digitBits at4 digit).all (· < maxLcores) := by simpa using hlt.1
      rw [Hexadecimal.digit?_eq_some_iff.2 hdigit]
      simp only [hbounded, if_true]
      rw [(ih (by omega)).2 ⟨ds, hds, rfl, hlt.2⟩, hmap digit ds hdigit.1]
      rfl

/-! ## Masks -/

/-- A number has its one bits below a position if and only if it is less than the power of two. -/
theorem lt_two_pow_iff_bitIndices (n k : Nat) : n < 2 ^ k ↔ ∀ i ∈ n.bitIndices, i < k := by
  constructor
  · intro h i hi
    by_contra hle
    have hlt : n < 2 ^ i := Nat.lt_of_lt_of_le h (Nat.pow_le_pow_right (by decide) (by omega))
    rw [Nat.mem_bitIndices, Nat.testBit_lt_two_pow hlt] at hi
    cases hi
  · intro h
    refine Nat.lt_pow_two_of_testBit n fun i hi => ?_
    by_contra hbit
    have := h i (Nat.mem_bitIndices.2 (by simpa using hbit))
    omega

theorem ofMask?_eq_some_iff (hlength : text.length ≤ 2 ^ 30) (hrest : Unprefixed text rest) :
    ofMask? text = some ids ↔ ∃ n, Denotes rest n ∧ n < 2 ^ maxLcores ∧ ids = n.bitIndices := by
  obtain rfl := maskDigits_eq_iff.2 hrest
  have hdigits := length_maskDigits_le text
  have hword : Numeral.wordBound = 4 * 2 ^ 30 := rfl
  unfold ofMask?
  split
  case h_1 hnil =>
    rw [hnil]
    simp [Denotes]
  case h_2 hne =>
    have hne : maskDigits text ≠ [] := hne
    have hfits : 0 + 4 * (maskDigits text).reverse.length ≤ Numeral.wordBound := by
      rw [List.length_reverse]
      omega
    have hbits (raw : List Nat) := @bits?_eq_some_iff _ raw 0 hfits
    simp only [Option.map_eq_some_iff, hbits, Nat.zero_add, List.map_id']
    constructor
    · rintro ⟨raw, ⟨ds, hds, rfl, hlt⟩, rfl⟩
      refine ⟨_, ⟨hne, ds.reverse, ?_, by rw [List.reverse_reverse]⟩,
        (lt_two_pow_iff_bitIndices _ _).2 hlt, ?_⟩
      · rwa [← List.forall₂_reverse_iff, List.reverse_reverse]
      · exact List.mergeSort_eq_self (· ≤ ·) ((sorted_bitIndices _).imp Nat.le_of_lt)
    · rintro ⟨n, ⟨-, ds, hds, rfl⟩, hlt, rfl⟩
      refine ⟨_, ⟨ds.reverse, List.forall₂_reverse_iff.2 hds, rfl,
        (lt_two_pow_iff_bitIndices _ _).1 hlt⟩, ?_⟩
      exact List.mergeSort_eq_self (· ≤ ·) ((sorted_bitIndices _).imp Nat.le_of_lt)

/-- A core mask is read if and only if, less its prefix, it is a hexadecimal numeral of a number
below `2 ^ maxLcores`. The core set is strictly increasing and has the positions of the one bits of
the number, which is the sum of their powers of two. -/
theorem mask_denotes (hlength : text.length ≤ 2 ^ 30) :
    ∃ rest, (∀ cs, Unprefixed text cs ↔ cs = rest) ∧
      ((∃ ids, ofMask? text = some ids) ↔ ∃ n, Denotes rest n ∧ n < 2 ^ maxLcores) ∧
      ∀ ids n, ofMask? text = some ids → Denotes rest n →
        Sorted ids ∧ (∀ id, id ∈ ids ↔ n.testBit id) ∧ (ids.map fun id => 2 ^ id).sum = n ∧
          (ids = [] ↔ n = 0) := by
  have hrest : Unprefixed text (maskDigits text) := maskDigits_eq_iff.1 rfl
  refine ⟨maskDigits text, fun cs => maskDigits_eq_iff.symm.trans eq_comm, ?_,
    fun ids n hids hn => ?_⟩
  · simp only [ofMask?_eq_some_iff hlength hrest]
    constructor
    · rintro ⟨-, n, hn, hlt, -⟩
      exact ⟨n, hn, hlt⟩
    · rintro ⟨n, hn, hlt⟩
      exact ⟨_, n, hn, hlt, rfl⟩
  · obtain ⟨n', hn', -, rfl⟩ := (ofMask?_eq_some_iff hlength hrest).1 hids
    obtain rfl := hn.unique hn'
    have hsum : (n.bitIndices.map fun id => 2 ^ id).sum = n := Nat.sum_map_two_pow_bitIndices n
    refine ⟨sorted_bitIndices n, fun id => Nat.mem_bitIndices, hsum, fun hnil => ?_, ?_⟩
    · rw [hnil] at hsum
      exact hsum.symm
    · rintro rfl
      rfl

/-- Digits of either letter case and zeros in front are allowed. -/
theorem mask_denotes_zeros :
    "0X00fF0".toList.length ≤ 2 ^ 30 ∧
    ofMask? "0X00fF0".toList = some [4, 5, 6, 7, 8, 9, 10, 11] ∧
    ∃ rest, Unprefixed "0X00fF0".toList rest ∧ Denotes rest 4080 := by
  have hlength : "0X00fF0".toList.length ≤ 2 ^ 30 := by decide
  have hids : ofMask? "0X00fF0".toList = some [4, 5, 6, 7, 8, 9, 10, 11] :=
    congrArg some (List.mergeSort_of_pairwise (by decide))
  obtain ⟨rest, hrest, hread, hset⟩ := mask_denotes hlength
  obtain ⟨n, hn, -⟩ := hread.1 ⟨_, hids⟩
  obtain ⟨-, -, rfl, -⟩ := hset _ n hids hn
  exact ⟨hlength, hids, rest, (hrest rest).2 rfl, hn⟩

end CoreFleet.CoreSet
