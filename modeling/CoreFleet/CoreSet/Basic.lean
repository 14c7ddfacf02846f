import CoreFleet.Lcore

/-!
# Core sets

A core set is a strictly increasing list of identifiers. `ordered` puts any list of
identifiers into that form (`mem_ordered`, `sorted_ordered`).
-/

namespace CoreFleet.CoreSet

/-- Identifiers in strictly increasing order. -/
def Sorted (ids : List Nat) : Prop := ids.Pairwise (· < ·)

instance (ids : List Nat) : Decidable (Sorted ids) :=
  inferInstanceAs (Decidable (ids.Pairwise (· < ·)))

/-- The processors that can be used, out of those that are allowed. -/
def available (allowed : Nat → Bool) : List Nat := (List.range maxLcores).filter allowed

/-- Puts an identifier in its place, unless it is there already. -/
def insert (id : Nat) : List Nat → List Nat
  | [] => [id]
  | a :: as => if id < a then id :: a :: as else if id = a then a :: as else a :: insert id as

/-- The identifiers of a list, each once and in increasing order. -/
def ordered (ids : List Nat) : List Nat := ids.foldr insert []

/-- The identifiers from `first` to `last`. -/
def range (first last : Nat) : List Nat := List.range' first (last + 1 - first)

theorem mem_insert {x id : Nat} {ids : List Nat} : x ∈ insert id ids ↔ x = id ∨ x ∈ ids := by
  induction ids with
  | nil => simp [insert]
  | cons a as ih =>
    simp only [insert]
    split
    · simp
    · split
      · rename_i h; subst h; simp
      · simp [ih, or_left_comm]

theorem sorted_insert {id : Nat} {ids : List Nat} (h : Sorted ids) : Sorted (insert id ids) := by
  induction ids with
  | nil => simp [insert, Sorted]
  | cons a as ih =>
    obtain ⟨ha, has⟩ := List.pairwise_cons.1 h
    simp only [insert]
    split
    · rename_i hlt
      refine List.pairwise_cons.2 ⟨fun b hb => ?_, h⟩
      rcases List.mem_cons.1 hb with rfl | hb
      · exact hlt
      · exact Nat.lt_trans hlt (ha b hb)
    · split
      · exact h
      · rename_i h1 h2
        refine List.pairwise_cons.2 ⟨fun b hb => ?_, ih has⟩
        rcases mem_insert.1 hb with rfl | hb
        · omega
        · exact ha b hb

theorem mem_ordered {x : Nat} {ids : List Nat} : x ∈ ordered ids ↔ x ∈ ids := by
  induction ids with
  | nil => simp [ordered]
  | cons a as ih =>
    show x ∈ insert a (ordered as) ↔ _
    rw [mem_insert, ih, List.mem_cons]

theorem sorted_ordered (ids : List Nat) : Sorted (ordered ids) := by
  induction ids with
  | nil => simp [ordered, Sorted]
  | cons a as ih => exact sorted_insert ih

theorem sorted_available (allowed : Nat → Bool) : Sorted (available allowed) :=
  List.Pairwise.filter _ List.pairwise_lt_range

theorem lt_of_mem_available {allowed : Nat → Bool} {id : Nat} (h : id ∈ available allowed) :
    id < maxLcores :=
  List.mem_range.1 (List.mem_filter.1 h).1

theorem mem_range {x first last : Nat} : x ∈ range first last ↔ first ≤ x ∧ x ≤ last := by
  rw [range, List.mem_range'_1]
  omega

end CoreFleet.CoreSet
