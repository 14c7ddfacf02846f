import CoreFleet.CoreSet.Basic
import CoreFleet.Text.Blank
import CoreFleet.Text.Hexadecimal
import CoreFleet.Text.Numeral

/-!
# Core sets written as text

A core list is a comma separated list of identifiers and of ranges `first-last`, with
white space allowed around every part. A core mask is a hexadecimal number, of either
letter case and with an optional `0x`, in which bit `i` stands for identifier `i`. In
both, identifiers are below `maxLcores` ; a text of any other form is refused. The core
set is in increasing order in both cases (`increasing_ofList?`, `increasing_ofMask?`).
-/

namespace CoreFleet.CoreSet

/-! ## Lists -/

/-- The ends of the range a list item stands for : a range splits at its first dash, and
an item with no dash is one identifier. -/
def item? (item : List Char) : Option (Nat × Nat) :=
  match Text.splitOnce? '-' (Text.trim item) with
  | some (a, b) =>
    match Numeral.word? (Text.trim a), Numeral.word? (Text.trim b) with
    | some first, some last => some (first, last)
    | _, _ => none
  | none => (Numeral.word? (Text.trim item)).map fun id => (id, id)

/-- The identifiers of a list item : the range must not be empty and must end below
`maxLcores`. -/
def itemIds? (item : List Char) : Option (List Nat) :=
  match item? item with
  | some (first, last) => if first ≤ last ∧ last < maxLcores then some (range first last) else none
  | none => none

/-- The identifiers of all the items, in the order of the text. -/
def itemsIds? : List (List Char) → Option (List Nat)
  | [] => some []
  | item :: items =>
    match itemIds? item, itemsIds? items with
    | some ids, some rest => some (ids ++ rest)
    | _, _ => none

/-- The core set a core list denotes. -/
def ofList? (text : List Char) : Option (List Nat) :=
  (itemsIds? (Text.split ',' text)).map ordered

/-! ## Masks -/

/-- The digits of a mask, without the `0x` or `0X` that may stand in front. -/
def maskDigits : List Char → List Char
  | '0' :: 'x' :: cs => cs
  | '0' :: 'X' :: cs => cs
  | cs => cs

/-- The positions of the one bits of a hexadecimal digit at position `at4` of the bits.
Identifiers are 32-bit words, to which positions are cut. -/
def digitBits (at4 digit : Nat) : List Nat :=
  ([0, 1, 2, 3].filter fun b => digit.testBit b).map fun b => (at4 + b) % Numeral.wordBound

/-- The positions of the one bits of digits given from the least significant one, the
first of which stands at position `at4`. -/
def bits? : Nat → List Char → Option (List Nat)
  | _, [] => some []
  | at4, c :: cs =>
    match Hexadecimal.digit? c with
    | some d =>
      if (digitBits at4 d).all (· < maxLcores) then
        (bits? (at4 + 4) cs).map fun rest => digitBits at4 d ++ rest
      else none
    | none => none

/-- The core set a core mask denotes. -/
def ofMask? (text : List Char) : Option (List Nat) :=
  match maskDigits text with
  | [] => none
  | digits => (bits? 0 digits.reverse).map fun ids => ids.mergeSort

/-! ## The order of a core set -/

theorem increasing_ofList? {text : List Char} {ids : List Nat} (h : ofList? text = some ids) :
    ids.Pairwise (· ≤ ·) := by
  obtain ⟨raw, -, rfl⟩ := Option.map_eq_some_iff.1 h
  exact (sorted_ordered raw).imp Nat.le_of_lt

theorem increasing_ofMask? {text : List Char} {ids : List Nat} (h : ofMask? text = some ids) :
    ids.Pairwise (· ≤ ·) := by
  unfold ofMask? at h
  split at h
  · cases h
  · obtain ⟨raw, -, rfl⟩ := Option.map_eq_some_iff.1 h
    exact (List.pairwise_mergeSort (by simpa using fun a b c => Nat.le_trans)
      (by simpa using Nat.le_total) raw).imp (by simp)

end CoreFleet.CoreSet
