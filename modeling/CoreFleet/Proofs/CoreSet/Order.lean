import CoreFleet.Proofs.CoreSet.List
import CoreFleet.Proofs.CoreSet.Mask

/-!
# Core sets that are read from text

A core set is proper if it is strictly increasing and names only cores that there may be. Every
core set that is read from text is (`proper_ofList?`, `proper_ofMask?`), and so are the processors
that can be used (`proper_available`).
-/

namespace CoreFleet.CoreSet

/-- The cores stand in strictly increasing order, each with an identifier that there may be. -/
structure Proper (ids : List Nat) : Prop where
  sorted : Sorted ids
  bounded : ∀ id ∈ ids, id < maxLcores

theorem proper_available (allowed : Nat → Bool) : Proper (available allowed) :=
  ⟨sorted_available allowed, fun _ => lt_of_mem_available⟩

theorem proper_ofList? {text : List Char} {ids : List Nat} (h : ofList? text = some ids) :
    Proper ids := by
  have hsep : Text.Separates ',' text (Text.split ',' text) := Text.split_eq_iff.1 rfl
  have hlegible := (exists_ofList?_iff hsep).1 ⟨ids, h⟩
  exact ⟨sorted_ofList? h, fun id hid => lt_of_covers hlegible ((mem_ofList? hsep h).1 hid)⟩

/-- A mask of this length is long enough for any core, and its bits have positions of their own. -/
theorem proper_ofMask? {text : List Char} {ids : List Nat} (h : ofMask? text = some ids)
    (hlength : text.length ≤ 2 ^ 30) : Proper ids := by
  obtain ⟨n, -, hlt, rfl⟩ := (ofMask?_eq_some_iff hlength (maskDigits_eq_iff.1 rfl)).1 h
  exact ⟨sorted_bitIndices n, (lt_two_pow_iff_bitIndices n maxLcores).1 hlt⟩

end CoreFleet.CoreSet
