import CoreFleet.Proofs.Json.Record

/-!
# Members in any order

What a mapping describes does not hang on the order of its members, nor on members of no column
(`Rearranged.describes_iff`). It describes a record just if no column is given twice and what is
given is of the type of its column (`exists_describes_iff`).
-/

namespace CoreFleet.Json

variable {σ : Type} {keys : List String} {ms ms' : List Member} {key : String} {v : Value}

/-! ## Members by their keys -/

/-- A key that is given once is given by any member that has it. -/
theorem given?_eq_some_iff (h : Once keys ms) (hkey : key ∈ keys) :
    given? ms key = some v ↔ (some key, v) ∈ ms := by
  induction ms with
  | nil => simp [given?]
  | cons m ms ih =>
    obtain ⟨_ | k, w⟩ := m
    · simpa [given?] using ih (by simpa [Once] using h)
    · by_cases hk : k = key
      · subst hk
        have hnone := ((once_cons_of_mem hkey).1 h).1
        have hnot : (some k, v) ∉ ms := fun hmem =>
          given?_eq_none_iff.1 hnone (List.mem_filterMap.2 ⟨_, hmem, rfl⟩)
        simp [given?_cons_self, hnot, eq_comm]
      · have honce : Once keys ms := by
          by_cases hmem : k ∈ keys
          · exact ((once_cons_of_mem hmem).1 h).2
          · exact (once_cons_of_notMem hmem).1 h
        rw [given?_cons_of_ne hk, ih honce]
        simp [Ne.symm hk]

theorem Once.perm (h : ms.Perm ms') : Once keys ms ↔ Once keys ms' :=
  ((h.filterMap Prod.fst).filter _).nodup_iff

theorem given?_perm (h : ms.Perm ms') (honce : Once keys ms) (hkey : key ∈ keys) :
    given? ms key = given? ms' key := by
  ext v
  rw [given?_eq_some_iff honce hkey, given?_eq_some_iff ((Once.perm h).1 honce) hkey, h.mem_iff]

/-! ## What is given fits -/

/-- The members fit the columns : no column is given twice, and what is given is of its type. -/
structure Fits (columns : List (Column σ)) (ms : List Member) : Prop where
  once : Once (keysOf columns) ms
  typed : ∀ c ∈ columns, ∀ v, (some c.key, v) ∈ ms → ∃ a, c.Means v a

variable {columns : List (Column σ)} {default r : σ}

theorem Describes.fits (h : Describes columns default (.mapping ms) r) : Fits columns ms := by
  have honce : Once (keysOf columns) ms := h.isRecord.2
  refine ⟨honce, fun c hc v hmem => ⟨c.get r, ?_⟩⟩
  have hgiven := h.given c hc
  rwa [Value.given?, (given?_eq_some_iff honce (List.mem_map_of_mem hc)).2 hmem] at hgiven

/-- There is a record with any values of the right types in its columns. The columns are filled one
after the other. -/
theorem Lawful.exists_given (h : Lawful columns) (given : String → Option Value)
    (htyped : ∀ c ∈ columns, ∀ v, given c.key = some v → ∃ a, c.Means v a) :
    ∃ r', ∀ c ∈ columns, Given c.Means (c.get r) (given c.key) (c.get r') := by
  have hleft (left : List (Column σ)) (hsub : left.Sublist columns) (r : σ) : ∃ r', ∀ c ∈ columns,
      Given c.Means (c.get r) (if c.key ∈ keysOf left then given c.key else none) (c.get r') := by
    induction left generalizing r with
    | nil => exact ⟨r, (h.given_none).2 rfl⟩
    | cons c left ih =>
      have hc : c ∈ columns := hsub.subset List.mem_cons_self
      have hkey : c.key ∉ keysOf left :=
        (List.nodup_cons.1 (h.nodup.sublist (hsub.map Column.key))).1
      have hih := ih ((List.sublist_cons_self c left).trans hsub)
      cases hgiven : given c.key with
      | none =>
        obtain ⟨r', hr'⟩ := hih r
        refine ⟨r', fun d hd => ?_⟩
        have hd' := hr' d hd
        by_cases heq : d.key = c.key
        · obtain rfl := h.eq_of_key hd hc heq
          simpa [keysOf, hgiven] using hd'
        · simpa [keysOf, heq] using hd'
      | some v =>
        obtain ⟨a, ha⟩ := htyped c hc v hgiven
        obtain ⟨r', hr'⟩ := hih (c.set r a)
        have hbefore : (if c.key ∈ keysOf (c :: left) then given c.key else none) = some v := by
          simp [keysOf, hgiven]
        refine ⟨r', (h.given_some r r' hc
          (fun key => if key ∈ keysOf (c :: left) then given key else none)
          (fun key => if key ∈ keysOf left then given key else none)
          hbefore (if_neg hkey) fun d _ hne => ?_).2 ⟨a, ha, hr'⟩⟩
        simp [keysOf, hne]
  obtain ⟨r', hr'⟩ := hleft columns (List.Sublist.refl _) r
  refine ⟨r', fun c hc => ?_⟩
  simpa only [if_pos (show c.key ∈ keysOf columns from List.mem_map_of_mem hc)] using hr' c hc

theorem exists_describes_iff (h : Lawful columns) (hunicode : ∀ m ∈ ms, m.1 ≠ none) :
    (∃ r, Describes columns default (.mapping ms) r) ↔ Fits columns ms := by
  constructor
  · rintro ⟨r, hr⟩
    exact hr.fits
  · rintro ⟨honce, htyped⟩
    obtain ⟨r, hr⟩ := h.exists_given (r := default) (given? ms) fun c hc v hv =>
      htyped c hc v ((given?_eq_some_iff honce (List.mem_map_of_mem hc)).1 hv)
    exact ⟨r, ⟨hunicode, honce⟩, hr⟩

/-! ## Rearrangements -/

/-- The second members are the first ones in another order, with further ones of none of these keys,
and with values that are alike for their key. -/
inductive Rearranged (keys : List String) (Alike : String → Value → Value → Prop) :
    List Member → List Member → Prop
  | reorder {ms ms' : List Member} : ms.Perm ms' → Rearranged keys Alike ms ms'
  | add {ms : List Member} {key : String} {v : Value} : key ∉ keys →
      Rearranged keys Alike ms ((some key, v) :: ms)
  | change {ms : List Member} {key : String} {v v' : Value} : Alike key v v' →
      Rearranged keys Alike ((some key, v) :: ms) ((some key, v') :: ms)
  | trans {ms ms' ms'' : List Member} : Rearranged keys Alike ms ms' →
      Rearranged keys Alike ms' ms'' → Rearranged keys Alike ms ms''

theorem Rearranged.describes_iff {Alike : String → Value → Value → Prop}
    (halike : ∀ c ∈ columns, ∀ v v', Alike c.key v v' → ∀ a, c.Means v a ↔ c.Means v' a)
    (h : Rearranged (keysOf columns) Alike ms ms') :
    Describes columns default (.mapping ms) r ↔ Describes columns default (.mapping ms') r := by
  -- the given values decide, together with what is given once and the keys
  have hcongr {ms ms' : List Member} (hunicode : (∀ m ∈ ms, m.1 ≠ none) ↔ ∀ m ∈ ms', m.1 ≠ none)
      (honce : Once (keysOf columns) ms ↔ Once (keysOf columns) ms')
      (hgiven : Once (keysOf columns) ms → ∀ c ∈ columns,
        (Given c.Means (c.get default) (given? ms c.key) (c.get r) ↔
          Given c.Means (c.get default) (given? ms' c.key) (c.get r))) :
      Describes columns default (.mapping ms) r ↔ Describes columns default (.mapping ms') r := by
    constructor
    · rintro ⟨⟨hu, ho⟩, hg⟩
      exact ⟨⟨hunicode.1 hu, honce.1 ho⟩, fun c hc => (hgiven ho c hc).1 (hg c hc)⟩
    · rintro ⟨⟨hu, ho⟩, hg⟩
      have ho := honce.2 ho
      exact ⟨⟨hunicode.2 hu, ho⟩, fun c hc => (hgiven ho c hc).2 (hg c hc)⟩
  induction h with
  | reorder hperm =>
    refine hcongr (by simp only [hperm.mem_iff]) (Once.perm hperm) fun honce c hc => ?_
    rw [given?_perm hperm honce (List.mem_map_of_mem hc)]
  | @add ms key v hkey =>
    refine hcongr (by simp) (once_cons_of_notMem hkey).symm fun _ c hc => ?_
    have hne : key ≠ c.key := fun heq => hkey (heq ▸ List.mem_map_of_mem hc)
    rw [given?_cons_of_ne hne]
  | @change ms key v v' hv =>
    refine hcongr (by simp) (by simp [Once]) fun _ c hc => ?_
    by_cases hkey : key = c.key
    · subst hkey
      rw [given?_cons_self, given?_cons_self]
      exact halike c hc v v' hv _
    · rw [given?_cons_of_ne hkey, given?_cons_of_ne hkey]
  | trans _ _ ih ih' => exact ih.trans ih'

end CoreFleet.Json
