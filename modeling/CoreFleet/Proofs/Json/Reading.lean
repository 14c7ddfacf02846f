import CoreFleet.Proofs.Json.Passing

/-!
# Reading values of a type

A reader reads a type of values if, at a value, it accepts what is of the type and nothing else, and
takes off the text exactly the value (`Reads`). The readers of texts, natural numbers and
sequences do, and `optional` makes a reader that also reads null.
-/

namespace CoreFleet.Json

/-- The reader accepts the values that have a meaning, as this meaning, and refuses all others. -/
def Reads {α : Type} (read : Reader α) (Means : Value → α → Prop) : Prop :=
  ∀ ⦃v cs rest⦄, Spells (.value v) cs → Delimited rest → ∀ a rest',
    read (cs ++ rest) = .ok (a, rest') ↔ Means v a ∧ rest' = rest

variable {α : Type} {read : Reader α} {Means : Value → α → Prop}

/-- Of two readers one after the other both accept. -/
theorem bind_eq_ok_iff {β γ : Type} {x : Except Fault β} {f : β → Except Fault γ} {c : γ} :
    x.bind f = .ok c ↔ ∃ b, x = .ok b ∧ f b = .ok c := by
  cases x <;> simp [Except.bind]

/-- What is read at a value goes on with its meaning, right after it. -/
theorem Reads.bind_eq_ok_iff (h : Reads read Means) {v : Value} {cs rest : List Char}
    (hv : Spells (.value v) cs) (hrest : Delimited rest) {γ : Type}
    {f : α × List Char → Except Fault γ} {c : γ} :
    (read (cs ++ rest)).bind f = .ok c ↔ ∃ a, Means v a ∧ f (a, rest) = .ok c := by
  simp only [Json.bind_eq_ok_iff, Prod.exists, h hv hrest]
  constructor
  · rintro ⟨a, rest', ⟨ha, rfl⟩, hok⟩
    exact ⟨a, ha, hok⟩
  · rintro ⟨a, ha, hok⟩
    exact ⟨a, rest, ⟨ha, rfl⟩, hok⟩

/-! ## Texts and numbers -/

theorem ofScalar_eq_ok_iff {accept : Found → Except Misfit α} {cs rest : List Char} {a : α} :
    ofScalar accept cs = .ok (a, rest) ↔
      ∃ found, scalar cs = .ok (found, rest) ∧ accept found = .ok a := by
  unfold ofScalar
  cases scalar cs with
  | error e => simp
  | ok p =>
    obtain ⟨found, rest'⟩ := p
    dsimp only
    cases haccept : accept found with
    | error m => simp_all
    | ok a' =>
      simp only [Except.ok.injEq, Prod.mk.injEq]
      constructor
      · rintro ⟨rfl, rfl⟩
        exact ⟨found, ⟨rfl, rfl⟩, haccept⟩
      · rintro ⟨_, ⟨rfl, rfl⟩, h⟩
        exact ⟨Except.ok.inj (haccept.symm.trans h), rfl⟩

/-- What is found in a scalar, unless it is out of range or no Unicode text. -/
def Value.found? : Value → Option Found
  | null => some .null
  | boolean b => some (.boolean b)
  | number n => n.found.toOption
  | text s => s.map .text
  | sequence _ | mapping _ => none

/-- A reader of scalars reads those in which it accepts what is found. -/
theorem reads_ofScalar {accept : Found → Except Misfit α}
    (hsequence : ∀ a, accept .sequence ≠ .ok a) (hmapping : ∀ a, accept .mapping ≠ .ok a) :
    Reads (ofScalar accept) fun v a => ∃ found, v.found? = some found ∧ accept found = .ok a := by
  intro v cs rest h hrest a rest'
  have hseen := scalar_append h hrest
  rw [ofScalar_eq_ok_iff]
  -- what is found in a scalar is followed by the rest
  have hscalar {r : Option Found} (hr : ∀ found rest',
        scalar (cs ++ rest) = .ok (found, rest') ↔ r = some found ∧ rest' = rest) :
      (∃ found, scalar (cs ++ rest) = .ok (found, rest') ∧ accept found = .ok a) ↔
        (∃ found, r = some found ∧ accept found = .ok a) ∧ rest' = rest := by
    simp only [hr]
    constructor
    · rintro ⟨found, ⟨hfound, hrest'⟩, haccept⟩
      exact ⟨⟨found, hfound, haccept⟩, hrest'⟩
    · rintro ⟨⟨found, hfound, haccept⟩, hrest'⟩
      exact ⟨found, ⟨hfound, hrest'⟩, haccept⟩
  cases v with
  | null => exact hscalar fun found rest' => by rw [hseen]; simp [Value.found?, eq_comm]
  | boolean b => exact hscalar fun found rest' => by rw [hseen]; simp [Value.found?, eq_comm]
  | number n =>
    refine hscalar fun found rest' => ?_
    rw [hseen]
    cases hfound : n.found <;> simp [Value.found?, hfound, Except.map, Except.toOption, eq_comm]
  | text s =>
    refine hscalar fun found rest' => ?_
    cases s <;> rw [hseen] <;> simp [Value.found?, eq_comm]
  | sequence vs =>
    obtain ⟨rest'', hseen⟩ := hseen
    simp [hseen, Value.found?, hsequence]
  | mapping ms =>
    obtain ⟨rest'', hseen⟩ := hseen
    simp [hseen, Value.found?, hmapping]

theorem Reads.congr {Means' : Value → α → Prop} (h : Reads read Means)
    (hmeans : ∀ v cs, Spells (.value v) cs → ∀ a, Means v a ↔ Means' v a) : Reads read Means' := by
  intro v cs rest hv hrest a rest'
  rw [h hv hrest, hmeans v cs hv]

/-- Nothing but a number is found in a numeral. -/
theorem Number.found_cases {n : Number} {found : Found} (h : n.found = .ok found) :
    (∃ z, found = .integer z) ∨ ∃ x, found = .decimal x := by
  unfold Number.found at h
  split at h
  · split at h
    · exact Or.inl ⟨_, (Except.ok.inj h).symm⟩
    · split at h
      · exact Or.inl ⟨_, (Except.ok.inj h).symm⟩
      · exact Or.inr ⟨_, (Except.ok.inj h).symm⟩
  · split at h
    · exact Or.inr ⟨_, (Except.ok.inj h).symm⟩
    · cases h

/-- A number is found in a numeral alone. -/
theorem Value.number_of_found? {v : Value} {found : Found} (h : v.found? = some found)
    (hfound : (∃ z, found = .integer z) ∨ ∃ x, found = .decimal x) :
    ∃ n, v = .number n ∧ n.found = .ok found := by
  cases v with
  | number n =>
    refine ⟨n, rfl, ?_⟩
    unfold Value.found? at h
    cases hn : n.found with
    | error e => simp [hn, Except.toOption] at h
    | ok f => simpa [hn, Except.toOption] using h
  | text s =>
    obtain ⟨s, -, rfl⟩ := Option.map_eq_some_iff.1 h
    simp at hfound
  | null | boolean =>
    obtain rfl := Option.some.inj h
    simp at hfound
  | sequence | mapping => cases h

theorem reads_text : Reads text IsText := by
  refine (reads_ofScalar nofun nofun).congr fun v cs _ s => ?_
  unfold IsText
  constructor
  · rintro ⟨found, hfound, haccept⟩
    cases found with
    | text s' =>
      obtain rfl : s' = s := Except.ok.inj haccept
      cases v with
      | text o =>
        obtain ⟨s, rfl, hs⟩ := Option.map_eq_some_iff.1 hfound
        rw [Found.text.inj hs]
      | number n =>
        cases hn : n.found with
        | error e => simp [Value.found?, hn, Except.toOption] at hfound
        | ok f =>
          obtain rfl : f = .text s' := by simpa [Value.found?, hn, Except.toOption] using hfound
          simpa using Number.found_cases hn
      | null | boolean | sequence | mapping => cases hfound
    | _ => cases haccept
  · rintro rfl
    exact ⟨_, rfl, rfl⟩

/-- The digits of a number are gathered as long as it fits a 64-bit word. -/
theorem Number.gather_eq_nil_iff {n m : Nat} {ds : List Nat} :
    Number.gather n ds = (m, []) ↔
      m = n * 10 ^ ds.length + Nat.ofDigits 10 ds.reverse ∧ (ds = [] ∨ m < Numeral.longBound) := by
  induction ds generalizing n with
  | nil => simp [Number.gather, eq_comm]
  | cons d ds ih =>
    rw [Number.gather, Numeral.value_cons]
    split
    case isTrue hlt =>
      rw [ih]
      refine and_congr_right fun hm => ?_
      cases ds with
      | nil =>
        obtain rfl : m = 10 * n + d := by simpa using hm
        simp [hlt]
      | cons => simp
    case isFalse hge =>
      simp only [Prod.mk.injEq, reduceCtorEq, and_false, false_or, false_iff, not_and, not_lt]
      rintro rfl
      have hpow : 0 < 10 ^ ds.length := Nat.pow_pos (by decide)
      calc Numeral.longBound ≤ 10 * n + d := Nat.not_lt.1 hge
        _ ≤ (10 * n + d) * 10 ^ ds.length := Nat.le_mul_of_pos_right _ hpow
        _ ≤ _ := Nat.le_add_right _ _

/-- A numeral is found to be a natural number if it is written like one and fits a 64-bit word. -/
theorem Number.found_eq_natural_iff {n : Number} (hne : n.whole ≠ []) {m : Nat} :
    n.found = .ok (.integer m) ↔ n = ⟨false, n.whole, [], none⟩ ∧
      m = Nat.ofDigits 10 n.whole.reverse ∧ m < Numeral.longBound := by
  obtain ⟨negative, whole, fraction, exponent⟩ := n
  have hgather {w : Nat} : Number.gather 0 whole = (w, []) ↔
      w = Nat.ofDigits 10 whole.reverse ∧ w < Numeral.longBound := by
    rw [Number.gather_eq_nil_iff, Nat.zero_mul, Nat.zero_add]
    exact and_congr_right fun _ => or_iff_right hne
  constructor
  · intro h
    unfold Number.found at h
    split at h
    · next w hfraction hexponent hw =>
      obtain ⟨hvalue, hlt⟩ := hgather.1 hw
      obtain rfl : fraction = [] := hfraction
      obtain rfl : exponent = none := hexponent
      split at h
      · next hpositive =>
        have hm : (w : Int) = m := Found.integer.inj (Except.ok.inj h)
        obtain rfl : w = m := by omega
        exact ⟨by simpa using hpositive, hvalue, hlt⟩
      · split at h
        · -- a number below zero is none
          have hm : -(w : Int) = m := Found.integer.inj (Except.ok.inj h)
          omega
        · cases Except.ok.inj h
    · split at h
      · cases Except.ok.inj h
      · cases h
  · rintro ⟨hn, hm⟩
    obtain ⟨rfl, -, rfl, rfl⟩ := Number.mk.inj hn
    simp [Number.found, hgather.2 hm]

theorem Number.Spells.whole_ne_nil {n : Number} {cs : List Char} (h : Number.Spells n cs) :
    n.whole ≠ [] := by
  obtain ⟨hwhole, -, -⟩ := h
  exact hwhole.digits.nonempty

theorem reads_natural {bound : Nat} {expected : String} (hbound : bound ≤ Numeral.longBound) :
    Reads (natural bound expected) (IsNatural bound) := by
  refine (reads_ofScalar nofun nofun).congr fun v cs hv m => ?_
  constructor
  · rintro ⟨found, hfound, haccept⟩
    cases found with
    | integer z =>
      dsimp only at haccept
      split at haccept
      case isTrue hz =>
        obtain rfl := Except.ok.inj haccept
        obtain ⟨n, rfl, hn⟩ := Value.number_of_found? hfound (Or.inl ⟨z, rfl⟩)
        rw [← Int.toNat_of_nonneg hz.1] at hn
        have hne : n.whole ≠ [] := by
          cases hv with
          | number hws hspells => exact hspells.whole_ne_nil
        obtain ⟨heq, hvalue, -⟩ := (Number.found_eq_natural_iff hne).1 hn
        exact ⟨n.whole, congrArg Value.number heq, hvalue, by omega⟩
      case isFalse => cases haccept
    | _ => cases haccept
  · rintro ⟨ds, rfl, hvalue, hlt⟩
    have hne : ds ≠ [] := by
      cases hv with
      | number hws hspells => exact hspells.whole_ne_nil
    have hfound : Number.found ⟨false, ds, [], none⟩ = .ok (.integer m) :=
      (Number.found_eq_natural_iff hne).2 ⟨rfl, hvalue, by omega⟩
    exact ⟨.integer m, by simp [Value.found?, hfound, Except.toOption], by simp; omega⟩

/-! ## Optional values -/

/-- After white space a value begins with a character of its own. -/
theorem skipSpace_value {v : Value} {c : Char} {ws : List Char} (hws : Spaces ws)
    (hc : v.Begins c) (t rest : List Char) :
    skipSpace (ws ++ c :: t ++ rest) = c :: t ++ rest := by
  rw [List.append_assoc, skipSpace_append hws]
  exact skipSpace_cons hc.alone.1 _

theorem reads_optional (h : Reads read Means) (hnull : ∀ a, ¬ Means .null a) :
    Reads (optional read) (IsOptional Means) := by
  intro v cs rest hv hrest o rest'
  by_cases hv_null : v = .null
  · subst hv_null
    cases hv with
    | @null ws hws =>
      have hread : optional read (ws ++ ['n', 'u', 'l', 'l'] ++ rest) = .ok (none, rest) := by
        rw [optional, List.append_assoc, skipSpace_append hws]
        exact congrArg (Except.map _) (word_append ['u', 'l', 'l'] rest)
      rw [hread]
      cases o with
      | none => simp [IsOptional, eq_comm]
      | some a => simp [IsOptional, hnull]
  · obtain ⟨ws, c, t, rfl, hws, hc, hv'⟩ := hv.trim_value
    have hn : c ≠ 'n' := fun h => hv_null (hc.distinct.1 h)
    have hread : optional read (ws ++ c :: t ++ rest) =
        (read (c :: t ++ rest)).map fun p => (some p.1, p.2) := by
      rw [optional, skipSpace_value hws hc]
      split
      · next heq => exact absurd (List.cons.inj heq).1 hn
      · rfl
    rw [hread]
    have hmeans := h hv' hrest
    cases o with
    | none =>
      simp only [IsOptional, hv_null, false_and, iff_false]
      cases read (c :: t ++ rest) <;> simp [Except.map]
    | some a =>
      rw [IsOptional, ← hmeans]
      cases read (c :: t ++ rest) <;> simp [Except.map, Prod.ext_iff]

/-! ## Sequences -/

/-- An item is read, and then all that follow it. -/
theorem Reads.items_iff (h : Reads read Means) {v : Value} {vs : List Value}
    {cs more rest rest' : List Char} {as : List α} (hv : Spells (.value v) cs)
    (hmore : Delimited more) {f : Reader (List α)}
    (hnext : ∀ as rest', f more = .ok (as, rest') ↔ List.Forall₂ Means vs as ∧ rest' = rest) :
    ((read (cs ++ more)).bind fun p => (f p.2).bind fun q => .ok (p.1 :: q.1, q.2)) =
        .ok (as, rest') ↔ List.Forall₂ Means (v :: vs) as ∧ rest' = rest := by
  rw [h.bind_eq_ok_iff hv hmore]
  simp only [Json.bind_eq_ok_iff, Prod.exists, hnext]
  constructor
  · rintro ⟨a, ha, as', rest'', ⟨has, rfl⟩, heq⟩
    obtain ⟨rfl, rfl⟩ := Prod.mk.inj (Except.ok.inj heq)
    exact ⟨.cons ha has, rfl⟩
  · rintro ⟨hall, rfl⟩
    cases hall with
    | cons ha has => exact ⟨_, ha, _, _, ⟨has, rfl⟩, rfl⟩

theorem moreItems_append (h : Reads read Means) {vs : List Value} {cs rest rest' : List Char}
    (hmore : Spells (.moreItems vs) cs) {fuel : Nat} (hfuel : cs.length ≤ fuel) {as : List α} :
    moreItems read fuel (cs ++ rest) = .ok (as, rest') ↔
      List.Forall₂ Means vs as ∧ rest' = rest := by
  induction vs generalizing cs fuel as rest' with
  | nil =>
    cases hmore with
    | endItems hws =>
      simp only [List.length_append, List.length_cons] at hfuel
      obtain ⟨fuel, rfl⟩ := Nat.exists_eq_add_of_le' (show 0 < fuel by omega)
      simp [moreItems, skipSpace_append, skipSpace_cons, isSpace, hws, eq_comm]
  | cons v vs ih =>
    cases hmore with
    | @nextItem ws cs more _ _ hws hv hmore =>
      simp only [List.length_append, List.length_cons] at hfuel
      obtain ⟨fuel, rfl⟩ := Nat.exists_eq_add_of_le' (show 0 < fuel by omega)
      have hdelimited := delimited_more hmore (Or.inl ⟨_, rfl⟩) rest
      have hfuel : more.length ≤ fuel := by omega
      rw [← h.items_iff hv hdelimited fun as rest' => ih hmore hfuel]
      simp [moreItems, skipSpace_append, skipSpace_cons, isSpace, hws]
      rfl

/-- A value that is no sequence is not read as one. -/
theorem sequence_ne_ok {v : Value} {cs : List Char} (hv : Spells (.value v) cs)
    (hv_sequence : ∀ vs, v ≠ .sequence vs) {rest rest' : List Char} {as : List α} :
    sequence read (cs ++ rest) ≠ .ok (as, rest') := by
  obtain ⟨ws, c, t, rfl, hws, hc, -⟩ := hv.trim_value
  have hsquare : c ≠ '[' := fun h =>
    (hc.distinct.2.1 h).elim fun vs hvs => hv_sequence vs hvs
  rw [sequence, skipSpace_value hws hc]
  split
  · next heq => exact absurd (List.cons.inj heq).1 hsquare
  · rw [Ne, ofScalar_eq_ok_iff]
    simp

theorem reads_sequence (h : Reads read Means) : Reads (sequence read) (IsSequence Means) := by
  intro v cs rest hv hrest as rest'
  by_cases hv_sequence : ∀ vs, v ≠ .sequence vs
  · simp only [sequence_ne_ok hv hv_sequence, false_iff]
    rintro ⟨⟨vs, rfl, -⟩, -⟩
    exact hv_sequence vs rfl
  · obtain ⟨vs, rfl⟩ : ∃ vs, v = .sequence vs := by simpa using hv_sequence
    have hmeans {as : List α} : IsSequence Means (.sequence vs) as ↔ List.Forall₂ Means vs as := by
      simp [IsSequence]
    rw [hmeans]
    cases hv with
    | noItems hws hinner =>
      simp [sequence, skipSpace_append, skipSpace_cons, isSpace, hws, hinner, eq_comm]
    | @items ws cs more v vs hws hitem hmore =>
      obtain ⟨ws', c, t, rfl, hws', hc, hitem⟩ := hitem.trim_value
      have hdelimited := delimited_more hmore (Or.inl ⟨_, rfl⟩) rest
      have hopen : isSpace '[' = false := rfl
      obtain ⟨hspace, hsquare, -⟩ := hc.alone
      have hfuel : more.length ≤ (more ++ rest).length + 1 := by
        rw [List.length_append]
        omega
      rw [← h.items_iff hitem hdelimited (f := fun cs => moreItems read (cs.length + 1) cs)
        fun as rest' => moreItems_append h hmore hfuel]
      simp [sequence, skipSpace_append, skipSpace_cons, hopen, hws, hws', hspace, hsquare]
      rfl

/-! ## Documents -/

theorem document_eq_ok_iff (h : Reads read Means) {v : Value} {cs : List Char}
    (hdoc : Document v cs) {a : α} : document read cs = .ok a ↔ Means v a := by
  obtain ⟨cs, ws, rfl, hv, hws⟩ := hdoc
  have hrest : Delimited ws := by
    rw [← List.append_nil ws]
    exact delimited_spaces hws nofun
  have hread := h hv hrest a
  constructor
  · intro hok
    unfold document at hok
    split at hok
    · next a' rest' heq =>
      split at hok
      · obtain rfl := Except.ok.inj hok
        exact ((hread rest').1 heq).1
      · cases hok
    · cases hok
  · intro hmeans
    rw [document, (hread ws).2 ⟨hmeans, rfl⟩]
    simp [skipSpace_eq_nil hws]

end CoreFleet.Json
