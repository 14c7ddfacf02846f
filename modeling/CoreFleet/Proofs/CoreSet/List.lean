import CoreFleet.CoreSet.Text
import CoreFleet.Proofs.Text.Numeral
import CoreFleet.Proofs.Text.Parts
import Mathlib.Data.List.Sort

/-!
# What core lists denote

An item of a core list is an identifier or a range, with white space around every part (`Spans`).
A core list is read if and only if all its items are legible, and then the core set has the
identifiers that the items cover (`list_denotes`). So the order of the items, their repetition and
their overlaps do not matter.
-/

namespace CoreFleet

/-- A numeral has no dash in it, so that an item with a dash is no identifier. -/
theorem Numeral.Denotes.dash_notMem {cs : List Char} {n : Nat} (h : Denotes cs n) : '-' ∉ cs := by
  obtain ⟨ds, -, hds, -, hcs⟩ := h
  have hdigits : '-' ∉ ds.map digitChar := by
    intro hmem
    obtain ⟨d, hd, hdash⟩ := List.mem_map.1 hmem
    exact nomatch (digit?_eq_some_iff.2 ⟨hds d hd, hdash.symm⟩ : digit? '-' = some d)
  rcases hcs with rfl | rfl
  · exact hdigits
  · simpa using hdigits

namespace CoreSet

variable {text item : List Char} {items items' : List (List Char)} {first last n : Nat}
  {ids : List Nat}

/-! ## Items -/

/-- The text is a numeral of `n`, a 32-bit word, with white space around it. -/
def Writes (cs : List Char) (n : Nat) : Prop :=
  ∃ core, Text.Trims cs core ∧ Numeral.Denotes core n ∧ n < Numeral.wordBound

/-- The item stands for the identifiers from `first` to `last`. -/
inductive Spans (item : List Char) : Nat → Nat → Prop
  /-- An item may be one identifier. -/
  | single {id : Nat} (writes : Writes item id) : Spans item id id
  /-- A range is split at its first dash. -/
  | range {core before after : List Char} {first last : Nat} (trims : Text.Trims item core)
      (split : core = before ++ '-' :: after) (undashed : '-' ∉ before)
      (writesFirst : Writes before first) (writesLast : Writes after last) : Spans item first last

/-- The item stands for identifiers that there may be, and for one at least. -/
def Legible (item : List Char) : Prop :=
  ∃ first last, Spans item first last ∧ first ≤ last ∧ last < maxLcores

/-- Some item stands for the identifier, maybe among others. -/
def Covers (items : List (List Char)) (id : Nat) : Prop :=
  ∃ item ∈ items, ∃ first last, Spans item first last ∧ first ≤ id ∧ id ≤ last

theorem writes_iff {cs : List Char} : Writes cs n ↔ Numeral.word? (Text.trim cs) = some n := by
  rw [Numeral.word?_eq_some_iff]
  constructor
  · rintro ⟨core, htrims, hn⟩
    exact Text.trim_eq_iff.2 htrims ▸ hn
  · exact fun hn => ⟨_, Text.trims_trim cs, hn⟩

theorem item?_eq_some_iff : item? item = some (first, last) ↔ Spans item first last := by
  unfold item?
  split
  case h_1 before after hsplit =>
    obtain ⟨htrim, hfree⟩ := Text.splitOnce?_eq_some_iff.1 hsplit
    constructor
    · intro h
      split at h
      case h_1 hfirst hlast =>
        cases h
        exact .range (Text.trims_trim item) htrim hfree (writes_iff.2 hfirst) (writes_iff.2 hlast)
      case h_2 => cases h
    · intro h
      cases h with
      | single hid =>
        have hdash := (Numeral.word?_eq_some_iff.1 (writes_iff.1 hid)).1.dash_notMem
        exact absurd (htrim ▸ List.mem_append_right _ List.mem_cons_self) hdash
      | range htrims hcore hfree' hfirst hlast =>
        obtain rfl := Text.trim_eq_iff.2 htrims
        have hparts := hsplit.symm.trans (Text.splitOnce?_eq_some_iff.2 ⟨hcore, hfree'⟩)
        obtain ⟨rfl, rfl⟩ := Prod.mk.inj (Option.some.inj hparts)
        rw [writes_iff.1 hfirst, writes_iff.1 hlast]
  case h_2 hnone =>
    rw [Option.map_eq_some_iff]
    constructor
    · rintro ⟨id, hid, hspan⟩
      cases hspan
      exact .single (writes_iff.2 hid)
    · intro h
      cases h with
      | single hid => exact ⟨_, writes_iff.1 hid, rfl⟩
      | range htrims hcore =>
        obtain rfl := Text.trim_eq_iff.2 htrims
        exact absurd (hcore ▸ List.mem_append_right _ List.mem_cons_self)
          (Text.splitOnce?_eq_none_iff.1 hnone)

theorem itemIds?_eq_some_iff : itemIds? item = some ids ↔ ∃ first last, Spans item first last ∧
    first ≤ last ∧ last < maxLcores ∧ ids = range first last := by
  simp only [itemIds?, ← item?_eq_some_iff]
  cases item? item with
  | none => simp
  | some span =>
    obtain ⟨first, last⟩ := span
    simp only [Option.some.injEq, Prod.mk.injEq]
    constructor
    · intro h
      split at h
      case isTrue hrange => exact ⟨_, _, ⟨rfl, rfl⟩, hrange.1, hrange.2, (Option.some.inj h).symm⟩
      case isFalse => cases h
    · rintro ⟨_, _, ⟨rfl, rfl⟩, hle, hlt, rfl⟩
      rw [if_pos ⟨hle, hlt⟩]

theorem legible_iff : Legible item ↔ ∃ ids, itemIds? item = some ids := by
  simp only [itemIds?_eq_some_iff]
  constructor
  · rintro ⟨first, last, hspans, hle, hlt⟩
    exact ⟨_, first, last, hspans, hle, hlt, rfl⟩
  · rintro ⟨-, first, last, hspans, hle, hlt, -⟩
    exact ⟨first, last, hspans, hle, hlt⟩

/-- An item stands for one range. -/
theorem Spans.unique {first' last' : Nat} (h : Spans item first last)
    (h' : Spans item first' last') : first = first' ∧ last = last' :=
  Prod.mk.inj (Option.some.inj ((item?_eq_some_iff.2 h).symm.trans (item?_eq_some_iff.2 h')))

theorem mem_itemIds? (h : itemIds? item = some ids) {id : Nat} :
    id ∈ ids ↔ ∃ first last, Spans item first last ∧ first ≤ id ∧ id ≤ last := by
  obtain ⟨first, last, hspans, -, -, rfl⟩ := itemIds?_eq_some_iff.1 h
  rw [mem_range]
  constructor
  · exact fun hid => ⟨first, last, hspans, hid⟩
  · rintro ⟨first', last', hspans', hid⟩
    obtain ⟨rfl, rfl⟩ := hspans.unique hspans'
    exact hid

/-! ## Lists of items -/

theorem exists_itemsIds?_iff :
    (∃ ids, itemsIds? items = some ids) ↔ ∀ item ∈ items, Legible item := by
  induction items with
  | nil => simp [itemsIds?]
  | cons item items ih =>
    rw [List.forall_mem_cons, ← ih, legible_iff, itemsIds?]
    cases itemIds? item <;> cases itemsIds? items <;> simp

theorem mem_itemsIds? (h : itemsIds? items = some ids) {id : Nat} :
    id ∈ ids ↔ Covers items id := by
  induction items generalizing ids with
  | nil =>
    cases h
    simp [Covers]
  | cons item items ih =>
    rw [itemsIds?] at h
    split at h
    case h_1 own rest hown hrest =>
      cases h
      rw [List.mem_append, mem_itemIds? hown, ih hrest]
      simp [Covers]
    case h_2 => cases h

/-- A list whose first item is legible covers an identifier. -/
theorem exists_covers (hne : items ≠ []) (h : ∀ item ∈ items, Legible item) :
    ∃ id, Covers items id := by
  obtain ⟨item, hitem⟩ := List.exists_mem_of_ne_nil items hne
  obtain ⟨first, last, hspans, hle, -⟩ := h item hitem
  exact ⟨first, item, hitem, first, last, hspans, Nat.le_refl _, hle⟩

theorem lt_of_covers (h : ∀ item ∈ items, Legible item) {id : Nat} (hid : Covers items id) :
    id < maxLcores := by
  obtain ⟨item, hitem, first, last, hspans, -, hle⟩ := hid
  obtain ⟨first', last', hspans', -, hlt⟩ := h item hitem
  obtain ⟨-, rfl⟩ := hspans.unique hspans'
  exact Nat.lt_of_le_of_lt hle hlt

/-! ## Core lists -/

section Separated

variable (hsep : Text.Separates ',' text items)
include hsep

theorem exists_ofList?_iff : (∃ ids, ofList? text = some ids) ↔ ∀ item ∈ items, Legible item := by
  rw [ofList?, Text.split_eq_iff.2 hsep, ← exists_itemsIds?_iff]
  cases itemsIds? items <;> simp

theorem mem_ofList? (h : ofList? text = some ids) {id : Nat} : id ∈ ids ↔ Covers items id := by
  rw [ofList?, Text.split_eq_iff.2 hsep] at h
  obtain ⟨raw, hraw, rfl⟩ := Option.map_eq_some_iff.1 h
  rw [mem_ordered, mem_itemsIds? hraw]

end Separated

theorem sorted_ofList? (h : ofList? text = some ids) : Sorted ids := by
  obtain ⟨raw, -, rfl⟩ := Option.map_eq_some_iff.1 h
  exact sorted_ordered raw

/-- Core lists whose items cover the same identifiers denote the same core set. -/
theorem ofList?_congr {text' : List Char} (hsep : Text.Separates ',' text items)
    (hsep' : Text.Separates ',' text' items')
    (hlegible : (∀ item ∈ items', Legible item) ↔ ∀ item ∈ items, Legible item)
    (hcovers : (∀ item ∈ items, Legible item) → ∀ id, Covers items' id ↔ Covers items id) :
    ofList? text' = ofList? text := by
  have hsome := exists_ofList?_iff hsep
  have hsome' := (exists_ofList?_iff hsep').trans hlegible
  cases h : ofList? text with
  | none =>
    refine Option.eq_none_iff_forall_ne_some.2 fun ids hids => ?_
    obtain ⟨ids, hids⟩ := hsome.2 (hsome'.1 ⟨ids, hids⟩)
    exact nomatch h.symm.trans hids
  | some ids =>
    have hall := hsome.1 ⟨ids, h⟩
    obtain ⟨ids', h'⟩ := hsome'.2 hall
    have hsame (id : Nat) : id ∈ ids' ↔ id ∈ ids := by
      rw [mem_ofList? hsep' h', mem_ofList? hsep h, hcovers hall]
    rw [h', List.Pairwise.eq_of_mem_iff (sorted_ofList? h') (sorted_ofList? h) hsame]

/-- A core list is read if and only if every item of it is legible. The core set is not empty,
strictly increasing, and has the identifiers that the items cover. Core lists with the same items in
whatever order and number are read alike, and so are core lists whose legible items cover the same
identifiers. -/
theorem list_denotes (text : List Char) :
    ∃ items, (∀ pieces, Text.Separates ',' text pieces ↔ pieces = items) ∧
      ((∃ ids, ofList? text = some ids) ↔ ∀ item ∈ items, Legible item) ∧
      (∀ ids, ofList? text = some ids →
        ids ≠ [] ∧ Sorted ids ∧ ∀ id, id ∈ ids ↔ Covers items id) ∧
      ∀ text' items', Text.Separates ',' text' items' →
        ((∀ item, item ∈ items' ↔ item ∈ items) → ofList? text' = ofList? text) ∧
        ((∀ item ∈ items, Legible item) → (∀ item ∈ items', Legible item) →
          (∀ id, Covers items' id ↔ Covers items id) → ofList? text' = ofList? text) := by
  have hsep : Text.Separates ',' text (Text.split ',' text) := Text.split_eq_iff.1 rfl
  refine ⟨Text.split ',' text, fun pieces => Text.split_eq_iff.symm.trans eq_comm,
    exists_ofList?_iff hsep, fun ids h => ⟨?_, sorted_ofList? h, fun id => mem_ofList? hsep h⟩,
    fun text' items' hsep' => ⟨fun hitems => ?_, fun hall hall' hcovers => ?_⟩⟩
  · rintro rfl
    obtain ⟨id, hid⟩ := exists_covers hsep.nonempty ((exists_ofList?_iff hsep).1 ⟨[], h⟩)
    exact absurd ((mem_ofList? hsep h).2 hid) List.not_mem_nil
  · exact ofList?_congr hsep hsep' (by simp only [hitems]) fun _ id => by simp only [Covers, hitems]
  · exact ofList?_congr hsep hsep' (iff_of_true hall' hall) fun _ => hcovers

/-- Signs, zeros in front, white space and overlaps are allowed. -/
theorem list_denotes_overlap :
    ofList? "3,\t+1 - 2 , 002-3".toList = some [1, 2, 3] ∧
    ∃ items, Text.Separates ',' "3,\t+1 - 2 , 002-3".toList items ∧
      (∀ item ∈ items, Legible item) ∧ ∀ id, id ∈ [1, 2, 3] ↔ Covers items id := by
  have h : ofList? "3,\t+1 - 2 , 002-3".toList = some [1, 2, 3] := rfl
  obtain ⟨items, hsep, hlegible, hmem, -⟩ := list_denotes "3,\t+1 - 2 , 002-3".toList
  exact ⟨h, items, (hsep items).2 rfl, hlegible.1 ⟨_, h⟩, (hmem _ h).2.2⟩

end CoreSet

end CoreFleet
