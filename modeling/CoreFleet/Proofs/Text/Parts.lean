import CoreFleet.Text.Blank
import Mathlib.Data.List.TakeWhile

/-!
# The parts of a text

What trimming and splitting give, said without them. `Trims cs core` says that `core` is `cs` less
the white space around it, and `Separates sep cs pieces` that `pieces` is what stands between the
separators of `cs`. Both determine the parts (`trim_eq_iff`, `split_eq_iff`). A text is split once
at the first separator (`splitOnce?_eq_some_iff`).
-/

namespace CoreFleet.Text

variable {sep : Char} {cs : List Char}

/-! ## Trimming -/

/-- `core` is the text without the white space around it : it begins and ends with something else,
unless it is empty. -/
structure Trims (cs core : List Char) : Prop where
  around : ∃ before after, cs = before ++ (core ++ after) ∧
    (∀ c ∈ before, isBlank c) ∧ ∀ c ∈ after, isBlank c
  head : ∀ c ∈ core.head?, ¬isBlank c
  last : ∀ c ∈ core.getLast?, ¬isBlank c

/-- A text is white space, and a rest that begins with something else. -/
theorem exists_trimStart (cs : List Char) :
    ∃ before, cs = before ++ trimStart cs ∧ (∀ c ∈ before, isBlank c) ∧
      ∀ c ∈ (trimStart cs).head?, ¬isBlank c := by
  refine ⟨cs.takeWhile isBlank, List.takeWhile_append_dropWhile.symm,
    fun c hc => List.mem_takeWhile_imp hc, fun c hc => ?_⟩
  have hhead := List.head?_dropWhile_not isBlank cs
  rw [trimStart, Option.mem_def] at hc
  rw [hc] at hhead
  simpa using hhead

theorem trimStart_eq_self (h : ∀ c ∈ cs.head?, ¬isBlank c) : trimStart cs = cs := by
  cases cs with
  | nil => rfl
  | cons c cs => exact List.dropWhile_cons_of_neg (h c rfl)

theorem trimStart_append {before : List Char} (h : ∀ c ∈ before, isBlank c) :
    trimStart (before ++ cs) = trimStart cs :=
  List.dropWhile_append_of_pos h

theorem trimEnd_eq (cs : List Char) : trimEnd cs = (trimStart cs.reverse).reverse := rfl

theorem trims_trim (cs : List Char) : Trims cs (trim cs) := by
  obtain ⟨before, hbefore, hblank, hhead⟩ := exists_trimStart cs
  obtain ⟨after, hafter, hblank', hlast⟩ := exists_trimStart (trimStart cs).reverse
  have hcore : trimStart cs = trim cs ++ after.reverse := by
    rw [trim, trimEnd_eq, ← List.reverse_append, ← hafter, List.reverse_reverse]
  refine ⟨⟨before, after.reverse, hcore ▸ hbefore, hblank, by simpa using hblank'⟩,
    fun c hc => ?_, fun c hc => ?_⟩
  · rw [hcore, List.head?_append, Option.mem_def.1 hc] at hhead
    exact hhead c rfl
  · rw [trim, trimEnd_eq, List.getLast?_reverse] at hc
    exact hlast c hc

/-- A text has one core. -/
theorem trim_eq_iff {core : List Char} : trim cs = core ↔ Trims cs core := by
  refine ⟨fun h => h ▸ trims_trim cs, ?_⟩
  rintro ⟨⟨before, after, rfl, hbefore, hafter⟩, hhead, hlast⟩
  cases core with
  | nil =>
    have hnone : trimStart (before ++ ([] ++ after)) = [] :=
      List.dropWhile_eq_nil_iff.2 fun c hc => (List.mem_append.1 hc).elim (hbefore c) (hafter c)
    rw [trim, hnone]
    rfl
  | cons c core =>
    have hstart : trimStart (c :: core ++ after) = c :: core ++ after := trimStart_eq_self hhead
    have hend : trimStart (c :: core).reverse = (c :: core).reverse :=
      trimStart_eq_self (List.head?_reverse ▸ hlast)
    rw [trim, trimStart_append hbefore, hstart, trimEnd_eq, List.reverse_append,
      trimStart_append (by simpa using hafter), hend, List.reverse_reverse]

/-! ## Splitting -/

/-- The pieces are what stands between the separators. -/
structure Separates (sep : Char) (cs : List Char) (pieces : List (List Char)) : Prop where
  joined : [sep].intercalate pieces = cs
  free : ∀ piece ∈ pieces, sep ∉ piece
  nonempty : pieces ≠ []

theorem split_eq_splitOn (sep : Char) (cs : List Char) : split sep cs = cs.splitOn sep := by
  induction cs with
  | nil => rfl
  | cons c cs ih =>
    rw [split, List.splitOn_cons_eq_if_modifyHead, ih]
    by_cases hc : c = sep
    · simp [hc]
    · simp only [hc, if_false, beq_iff_eq]
      cases hcs : cs.splitOn sep with
      | nil => exact absurd hcs (List.splitOn_ne_nil _ _)
      | cons piece pieces => rfl

theorem notMem_of_mem_split {piece : List Char} (h : piece ∈ split sep cs) : sep ∉ piece := by
  induction cs generalizing piece with
  | nil => simp_all [split]
  | cons c cs ih =>
    rw [split] at h
    split at h
    case isTrue =>
      rcases List.mem_cons.1 h with rfl | h
      · exact List.not_mem_nil
      · exact ih h
    case isFalse hc =>
      split at h
      case h_1 hnil => exact absurd hnil (split_ne_nil sep cs)
      case h_2 first pieces hcs =>
        rcases List.mem_cons.1 h with rfl | h
        · simp [Ne.symm hc, ih (hcs ▸ List.mem_cons_self)]
        · exact ih (hcs ▸ List.mem_cons_of_mem _ h)

/-- A text is separated into pieces in one way. -/
theorem split_eq_iff {pieces : List (List Char)} :
    split sep cs = pieces ↔ Separates sep cs pieces := by
  constructor
  · rintro rfl
    refine ⟨?_, fun piece h => notMem_of_mem_split h, split_ne_nil sep cs⟩
    rw [split_eq_splitOn, List.intercalate_splitOn]
  · rintro ⟨rfl, hfree, hne⟩
    rw [split_eq_splitOn, List.splitOn_intercalate sep hfree hne]

theorem splitOnce?_eq_none_iff : splitOnce? sep cs = none ↔ sep ∉ cs := by
  induction cs with
  | nil => simp [splitOnce?]
  | cons c cs ih =>
    rw [splitOnce?]
    by_cases hc : c = sep
    · simp [hc]
    · simp [hc, ih, Ne.symm hc]

/-- A text is split at its first separator. -/
theorem splitOnce?_eq_some_iff {before after : List Char} :
    splitOnce? sep cs = some (before, after) ↔ cs = before ++ sep :: after ∧ sep ∉ before := by
  induction cs generalizing before after with
  | nil => simp [splitOnce?]
  | cons c cs ih =>
    rw [splitOnce?]
    by_cases hc : c = sep
    · subst hc
      cases before with
      | nil => simp
      | cons b before => simp_all [eq_comm]
    · cases before with
      | nil => simp [hc]
      | cons b before =>
        simp only [hc, if_false, Option.map_eq_some_iff, Prod.exists, Prod.mk.injEq,
          List.cons.injEq, ih, List.cons_append, List.mem_cons, not_or]
        constructor
        · rintro ⟨before', after', ⟨rfl, hfree⟩, ⟨rfl, rfl⟩, rfl⟩
          exact ⟨⟨rfl, rfl⟩, Ne.symm hc, hfree⟩
        · rintro ⟨⟨rfl, rfl⟩, -, hfree⟩
          exact ⟨before, after, ⟨rfl, hfree⟩, ⟨rfl, rfl⟩, rfl⟩

end CoreFleet.Text
