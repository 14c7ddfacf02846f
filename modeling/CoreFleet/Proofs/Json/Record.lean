import CoreFleet.Proofs.Json.Reading
import Mathlib.Data.List.Nodup

/-!
# Reading records

A record is described by its columns (`Column`) : a column has a key, and says what the values for
it mean and where the meaning is entered. A value that is a record means what its columns make of
it, each on its own : what is given for the key, or else the default (`Describes`). Neither the
order of the members nor a member of no column has a part in it.

`reads_record` says that a record is read as what it describes. Members are entered one after the
other, with the keys that were seen so far, so that the induction is on the members that are left,
and `Entered` says what the record becomes by them.
-/

namespace CoreFleet.Json

/-! ## Members -/

/-- A member of a mapping : its key, unless this is no Unicode text, and its value. -/
abbrev Member : Type := Option String × Value

/-- What is given for a key, by the first member that has it. -/
def given? (ms : List Member) (key : String) : Option Value :=
  (ms.find? fun m => m.1 = some key).map Prod.snd

/-- None of these keys is given twice. -/
def Once (keys : List String) (ms : List Member) : Prop :=
  ((ms.filterMap Prod.fst).filter (· ∈ keys)).Nodup

section Members

variable {keys : List String} {ms : List Member} {key other : String} {v : Value}

theorem given?_cons_self : given? ((some key, v) :: ms) key = some v := by
  simp [given?]

theorem given?_cons_of_ne (h : other ≠ key) :
    given? ((some other, v) :: ms) key = given? ms key := by
  simp [given?, h]

theorem given?_eq_none_iff : given? ms key = none ↔ key ∉ ms.filterMap Prod.fst := by
  simp only [given?, Option.map_eq_none_iff, List.find?_eq_none, List.mem_filterMap,
    decide_eq_true_eq, not_exists, not_and]

theorem once_cons_of_notMem (h : key ∉ keys) : Once keys ((some key, v) :: ms) ↔ Once keys ms := by
  simp [Once, h]

theorem once_cons_of_mem (h : key ∈ keys) :
    Once keys ((some key, v) :: ms) ↔ given? ms key = none ∧ Once keys ms := by
  simp [Once, h, given?_eq_none_iff]

end Members

/-! ## Columns -/

/-- What a value for a field means : this, or the default if there is none. -/
def Given {α : Type} (Means : Value → α → Prop) (default : α) : Option Value → α → Prop
  | none, a => a = default
  | some v, a => Means v a

/-- A column of a record : its key, how its values are read and what they mean, and where the
meaning stands in the record. -/
structure Column (σ : Type) where
  {α : Type}
  key : String
  read : Reader α
  Means : Value → α → Prop
  get : σ → α
  set : σ → α → σ

variable {σ : Type}

/-- The field that enters a column. -/
def Column.field (c : Column σ) : Field σ := .of c.key c.read c.set

/-- The keys of columns. -/
def keysOf (columns : List (Column σ)) : List String := columns.map Column.key

/-- The columns make up the record : they are read as what they mean, and each has a key and a place
of its own. -/
structure Lawful (columns : List (Column σ)) : Prop where
  nodup : (keysOf columns).Nodup
  reads : ∀ c ∈ columns, Reads c.read c.Means
  get_set : ∀ c ∈ columns, ∀ r a, c.get (c.set r a) = a
  get_set_of_ne : ∀ c ∈ columns, ∀ d ∈ columns, c.key ≠ d.key → ∀ r a, d.get (c.set r a) = d.get r
  ext : ∀ r r', (∀ c ∈ columns, c.get r = c.get r') → r = r'

/-- The value is a record of these columns : a mapping in which no column is given twice, or a
sequence of values for the columns in their order, of which some may be missing at the end. All
keys of a mapping are Unicode texts, also those of no column. -/
def Value.IsRecord (keys : List String) : Value → Prop
  | mapping ms => (∀ m ∈ ms, m.1 ≠ none) ∧ Once keys ms
  | sequence vs => vs.length ≤ keys.length
  | _ => False

/-- What a sequence of values gives for a key. -/
def nth? (keys : List String) (vs : List Value) (key : String) : Option Value :=
  (keys.idxOf? key).bind (vs[·]?)

/-- What a record gives for a key. -/
def Value.given? (keys : List String) (v : Value) (key : String) : Option Value :=
  match v with
  | mapping ms => Json.given? ms key
  | sequence vs => nth? keys vs key
  | _ => none

/-- The value is a record, and each column holds what the value gives for it. -/
structure Describes (columns : List (Column σ)) (default : σ) (v : Value) (r : σ) : Prop where
  isRecord : v.IsRecord (keysOf columns)
  given : ∀ c ∈ columns,
    Given c.Means (c.get default) (v.given? (keysOf columns) c.key) (c.get r)

section Columns

variable {columns : List (Column σ)} (h : Lawful columns) {c d : Column σ} {v : Value} {r r' : σ}

include h

theorem Lawful.eq_of_key (hc : c ∈ columns) (hd : d ∈ columns) (hkey : c.key = d.key) : c = d :=
  List.inj_on_of_nodup_map h.nodup hc hd hkey

/-- Nothing is given : the record stays as it is. -/
theorem Lawful.given_none : (∀ c ∈ columns, Given c.Means (c.get r) none (c.get r')) ↔ r' = r :=
  ⟨fun hgiven => h.ext _ _ hgiven, by rintro rfl c -; rfl⟩

/-- Something is given for one column, and nothing more for it later : its meaning is entered, and
all else is as if nothing had been given for it. -/
theorem Lawful.given_some (r r' : σ) (hc : c ∈ columns) (before after : String → Option Value)
    (hbefore : before c.key = some v) (hafter : after c.key = none)
    (hother : ∀ d ∈ columns, d.key ≠ c.key → before d.key = after d.key) :
    (∀ d ∈ columns, Given d.Means (d.get r) (before d.key) (d.get r')) ↔
      ∃ a, c.Means v a ∧
        ∀ d ∈ columns, Given d.Means (d.get (c.set r a)) (after d.key) (d.get r') := by
  constructor
  · intro hgiven
    have hmeans := hgiven c hc
    rw [hbefore] at hmeans
    refine ⟨c.get r', hmeans, fun d hd => ?_⟩
    by_cases hkey : d.key = c.key
    · obtain rfl := h.eq_of_key hd hc hkey
      rw [hafter, h.get_set d hd]
      rfl
    · rw [h.get_set_of_ne c hc d hd (Ne.symm hkey), ← hother d hd hkey]
      exact hgiven d hd
  · rintro ⟨a, hmeans, hgiven⟩ d hd
    by_cases hkey : d.key = c.key
    · obtain rfl := h.eq_of_key hd hc hkey
      have hget := hgiven d hd
      rw [hafter, h.get_set d hd] at hget
      obtain rfl : d.get r' = a := hget
      rw [hbefore]
      exact hmeans
    · have hget := hgiven d hd
      rwa [h.get_set_of_ne c hc d hd (Ne.symm hkey), ← hother d hd hkey] at hget

end Columns

/-! ## Mappings -/

/-- The record becomes another one by members that come after those of the keys seen. -/
structure Entered (columns : List (Column σ)) (seen : List String) (ms : List Member)
    (r r' : σ) : Prop where
  unicode : ∀ m ∈ ms, m.1 ≠ none
  once : Once (keysOf columns) ms
  fresh : ∀ key ∈ keysOf columns, key ∈ seen → given? ms key = none
  given : ∀ c ∈ columns, Given c.Means (c.get r) (given? ms c.key) (c.get r')

section Mappings

variable {columns : List (Column σ)} (h : Lawful columns) {seen seen' : List String}
  {ms : List Member} {key : String} {v : Value} {r r' : σ} {cs rest rest' : List Char}

omit h in
theorem not_entered_of_none : ¬ Entered columns seen ((none, v) :: ms) r r' :=
  fun h => h.unicode _ List.mem_cons_self rfl

omit h in
theorem entered_cons_of_notMem (hkey : key ∉ keysOf columns) :
    Entered columns seen ((some key, v) :: ms) r r' ↔ Entered columns seen ms r r' := by
  have hgiven : ∀ k ∈ keysOf columns, given? ((some key, v) :: ms) k = given? ms k := by
    intro k hk
    exact given?_cons_of_ne fun heq => hkey (heq ▸ hk)
  have hcolumn : ∀ c ∈ columns, given? ((some key, v) :: ms) c.key = given? ms c.key :=
    fun c hc => hgiven _ (List.mem_map_of_mem hc)
  constructor
  · rintro ⟨hunicode, honce, hfresh, hgiven'⟩
    refine ⟨(List.forall_mem_cons.1 hunicode).2, (once_cons_of_notMem hkey).1 honce,
      fun k hk hseen => ?_, fun c hc => ?_⟩
    · rw [← hgiven k hk]
      exact hfresh k hk hseen
    · rw [← hcolumn c hc]
      exact hgiven' c hc
  · rintro ⟨hunicode, honce, hfresh, hgiven'⟩
    refine ⟨List.forall_mem_cons.2 ⟨by simp, hunicode⟩, (once_cons_of_notMem hkey).2 honce,
      fun k hk hseen => ?_, fun c hc => ?_⟩
    · rw [hgiven k hk]
      exact hfresh k hk hseen
    · rw [hcolumn c hc]
      exact hgiven' c hc

include h

theorem entered_nil : Entered columns seen [] r r' ↔ r' = r := by
  rw [← h.given_none]
  refine ⟨fun hentered => hentered.given, fun hgiven => ?_⟩
  exact ⟨nofun, by simp [Once], fun _ _ _ => rfl, hgiven⟩

theorem entered_cons {c : Column σ} (hc : c ∈ columns) :
    Entered columns seen ((some c.key, v) :: ms) r r' ↔
      c.key ∉ seen ∧ ∃ a, c.Means v a ∧ Entered columns (c.key :: seen) ms (c.set r a) r' := by
  have hkey : c.key ∈ keysOf columns := List.mem_map_of_mem hc
  have hsplit (hnone : given? ms c.key = none) :
      (∀ d ∈ columns, Given d.Means (d.get r) (given? ((some c.key, v) :: ms) d.key) (d.get r')) ↔
        ∃ a, c.Means v a ∧
          ∀ d ∈ columns, Given d.Means (d.get (c.set r a)) (given? ms d.key) (d.get r') :=
    h.given_some r r' hc (given? ((some c.key, v) :: ms)) (given? ms) given?_cons_self hnone
      fun d _ hne => given?_cons_of_ne (Ne.symm hne)
  constructor
  · rintro ⟨hunicode, honce, hfresh, hgiven⟩
    obtain ⟨hnone, honce⟩ := (once_cons_of_mem hkey).1 honce
    obtain ⟨a, hmeans, hgiven⟩ := (hsplit hnone).1 hgiven
    refine ⟨fun hseen => ?_, a, hmeans, (List.forall_mem_cons.1 hunicode).2, honce,
      fun k hk hseen => ?_, hgiven⟩
    · exact nomatch given?_cons_self.symm.trans (hfresh c.key hkey hseen)
    · by_cases heq : k = c.key
      · exact heq ▸ hnone
      · have := hfresh k hk ((List.mem_cons.1 hseen).resolve_left heq)
        rwa [given?_cons_of_ne (Ne.symm heq)] at this
  · rintro ⟨hseen, a, hmeans, hunicode, honce, hfresh, hgiven⟩
    have hnone : given? ms c.key = none := hfresh c.key hkey List.mem_cons_self
    refine ⟨List.forall_mem_cons.2 ⟨by simp, hunicode⟩, (once_cons_of_mem hkey).2 ⟨hnone, honce⟩,
      fun k hk hk_seen => ?_, (hsplit hnone).2 ⟨a, hmeans, hgiven⟩⟩
    have hne : c.key ≠ k := fun heq => hseen (heq ▸ hk_seen)
    rw [given?_cons_of_ne hne]
    exact hfresh k hk (List.mem_cons_of_mem _ hk_seen)

/-- The field with the key of a column is that of the column. -/
theorem find_field {c : Column σ} (hc : c ∈ columns) :
    ((columns.map Column.field).find? fun f => f.key = c.key) = some c.field := by
  rw [List.find?_map]
  cases hfind : columns.find? ((fun f : Field σ => decide (f.key = c.key)) ∘ Column.field) with
  | none => simpa [Column.field, Field.of] using List.find?_eq_none.1 hfind c hc
  | some d =>
    have hkey : d.key = c.key := by
      have := List.find?_some hfind
      exact of_decide_eq_true this
    rw [h.eq_of_key (List.mem_of_find?_eq_some hfind) hc hkey]
    rfl

omit h in
/-- A member of no column is passed over. -/
theorem member_of_notMem (hkey : key ∉ keysOf columns) {ws : List Char} (hws : Spaces ws)
    (hv : Spells (.value v) cs) (hrest : Delimited rest) :
    member (columns.map Column.field) key seen r (ws ++ ':' :: (cs ++ rest)) =
      .ok (seen, r, rest) := by
  have hfind : ((columns.map Column.field).find? fun f => f.key = key) = none := by
    rw [List.find?_eq_none, List.forall_mem_map]
    intro c hc
    exact fun heq => hkey (of_decide_eq_true heq ▸ List.mem_map_of_mem hc)
  have hcolon : isSpace ':' = false := rfl
  rw [member, hfind]
  simp [mark_append hws hcolon, pass_append hv hrest, bind, Except.bind, pure, Except.pure]

/-- The value of a member is entered into its column, if this is the first one. -/
theorem member_of_mem {c : Column σ} (hc : c ∈ columns) {ws : List Char} (hws : Spaces ws) :
    member (columns.map Column.field) c.key seen r (ws ++ ':' :: cs) =
      if c.key ∈ seen then .error (.misfit (.repeatedKey c.key))
      else (c.read cs).bind fun p => .ok (c.key :: seen, c.set r p.1, p.2) := by
  have hcolon : isSpace ':' = false := rfl
  rw [member, find_field h hc]
  refine if_congr Iff.rfl rfl ?_
  simp only [mark_append hws hcolon, Column.field, Field.of, bind, Except.bind]
  cases c.read cs <;> rfl

/-- What is done after a member : the mapping ends, or the next member is read. -/
def afterMember (fields : List (Field σ)) (fuel : Nat) (p : List String × σ × List Char) :
    Except Fault (σ × List Char) :=
  match skipSpace p.2.2 with
  | '}' :: rest => .ok (p.2.1, rest)
  | ',' :: rest => members fields fuel p.1 p.2.1 rest
  | [] => .error .incomplete
  | _ => .error .malformed

omit h in
theorem members_succ {fields : List (Field σ)} {fuel : Nat} :
    members fields (fuel + 1) seen r cs = (openKey cs).bind fun cs => (Text.read cs).bind fun p =>
      (member fields (String.ofList p.1) seen r p.2).bind (afterMember fields fuel) := rfl

omit h in
/-- A key is read, if it is a Unicode text. -/
theorem members_append_key {fields : List (Field σ)} {fuel : Nat} {k : Option String}
    {kcs : List Char} (hk : Spells (.value (.text k)) kcs) :
    members fields (fuel + 1) seen r (kcs ++ rest) = k.elim (.error .malformed) fun key =>
      (member fields key seen r rest).bind (afterMember fields fuel) := by
  cases hk with
  | @text _ cs ps hws htext =>
    have hquote : isSpace '"' = false := rfl
    have hread := Text.read_append htext rest
    rw [members_succ]
    simp only [List.append_assoc, List.cons_append, List.nil_append, openKey,
      mark_append hws hquote, Except.bind, hread, Text.unicode?]
    cases Text.characters? ps <;> rfl

/-- A member is entered, and then all that follow it. -/
theorem members_append_member {k : Option String} {more : List Char} {fuel : Nat}
    (hm : Spells (.member k v) cs) (hmore : Delimited more)
    (hafter : ∀ seen r,
      afterMember (columns.map Column.field) fuel (seen, r, more) = .ok (r', rest') ↔
        Entered columns seen ms r r' ∧ rest' = rest) :
    members (columns.map Column.field) (fuel + 1) seen r (cs ++ more) = .ok (r', rest') ↔
      Entered columns seen ((k, v) :: ms) r r' ∧ rest' = rest := by
  cases hm with
  | @member kcs ws cs _ _ hk hws hv =>
    rw [List.append_assoc, members_append_key hk, List.append_assoc, List.cons_append]
    cases k with
    | none => simp [not_entered_of_none]
    | some key =>
      rw [Option.elim_some]
      by_cases hkey : key ∈ keysOf columns
      · obtain ⟨c, hc, rfl⟩ := List.mem_map.1 hkey
        rw [member_of_mem h hc hws, entered_cons h hc]
        split
        · next hseen => simp [hseen, Except.bind]
        · next hseen =>
          have hbind {x : Except Fault (c.α × List Char)}
              {f : List String × σ × List Char → Except Fault (σ × List Char)} :
              (x.bind fun p => .ok (c.key :: seen, c.set r p.1, p.2)).bind f =
                x.bind fun p => f (c.key :: seen, c.set r p.1, p.2) := by
            cases x <;> rfl
          rw [hbind, (h.reads c hc).bind_eq_ok_iff hv hmore]
          simp only [hafter, hseen, not_false_eq_true, true_and, ← and_assoc, exists_and_right]
      · rw [member_of_notMem hkey hws hv hmore, entered_cons_of_notMem hkey]
        exact hafter seen r

theorem members_append {k : Option String} {more : List Char} (hm : Spells (.member k v) cs)
    (hmore : Spells (.moreMembers ms) more) {fuel : Nat} (hfuel : more.length < fuel) :
    members (columns.map Column.field) fuel seen r (cs ++ (more ++ rest)) = .ok (r', rest') ↔
      Entered columns seen ((k, v) :: ms) r r' ∧ rest' = rest := by
  obtain ⟨fuel, rfl⟩ := Nat.exists_eq_add_of_le' (show 0 < fuel by omega)
  have hdelimited := delimited_more hmore (Or.inr ⟨_, rfl⟩) rest
  refine members_append_member h hm hdelimited fun seen r => ?_
  induction ms generalizing k v cs more fuel seen r with
  | nil =>
    cases hmore with
    | endMembers hws =>
      rw [entered_nil h]
      simp [afterMember, skipSpace_append, skipSpace_cons, isSpace, hws, eq_comm]
  | cons m ms ih =>
    cases hmore with
    | @nextMember ws cs more k v _ hws hm hmore =>
      simp only [List.length_append, List.length_cons] at hfuel
      obtain ⟨fuel, rfl⟩ := Nat.exists_eq_add_of_le' (show 0 < fuel by omega)
      have hdelimited := delimited_more hmore (Or.inr ⟨_, rfl⟩) rest
      rw [← members_append_member h hm hdelimited fun seen r =>
        ih hm hmore fuel (by omega) hdelimited seen r]
      simp [afterMember, skipSpace_append, skipSpace_cons, isSpace, hws]

end Mappings

/-! ## Sequences -/

section Sequences

variable {keys : List String} {key other : String} {v : Value} {vs : List Value}

theorem nth?_nil_right : nth? keys [] key = none := by
  unfold nth?
  cases keys.idxOf? key <;> rfl

theorem nth?_of_notMem (h : key ∉ keys) : nth? keys vs key = none := by
  rw [nth?, List.idxOf?_eq_none_iff.2 h]
  rfl

theorem nth?_cons_self : nth? (key :: keys) (v :: vs) key = some v := by
  simp [nth?, List.idxOf?_cons]

theorem nth?_cons_of_ne (h : other ≠ key) :
    nth? (other :: keys) (v :: vs) key = nth? keys vs key := by
  simp [nth?, List.idxOf?_cons, h]
  cases keys.idxOf? key <;> rfl

/-- The record becomes another one by values for these columns in their order. -/
structure Filled (columns left : List (Column σ)) (vs : List Value) (r r' : σ) : Prop where
  length : vs.length ≤ left.length
  given : ∀ c ∈ columns, Given c.Means (c.get r) (nth? (keysOf left) vs c.key) (c.get r')

variable {columns left : List (Column σ)} (h : Lawful columns) {c : Column σ} {r r' : σ}
  {cs rest rest' : List Char}

include h

theorem filled_nil : Filled columns left [] r r' ↔ r' = r := by
  rw [← h.given_none]
  constructor
  · rintro ⟨-, hgiven⟩ c hc
    simpa only [nth?_nil_right] using hgiven c hc
  · intro hgiven
    exact ⟨Nat.zero_le _, fun c hc => by simpa only [nth?_nil_right] using hgiven c hc⟩

theorem filled_cons (hc : c ∈ columns) (hleft : c.key ∉ keysOf left) :
    Filled columns (c :: left) (v :: vs) r r' ↔
      ∃ a, c.Means v a ∧ Filled columns left vs (c.set r a) r' := by
  have hsplit := h.given_some r r' hc (nth? (keysOf (c :: left)) (v :: vs))
    (nth? (keysOf left) vs) nth?_cons_self (nth?_of_notMem hleft)
    fun d _ hne => nth?_cons_of_ne (Ne.symm hne)
  constructor
  · rintro ⟨hlength, hgiven⟩
    obtain ⟨a, ha, hgiven⟩ := hsplit.1 hgiven
    exact ⟨a, ha, Nat.le_of_succ_le_succ hlength, hgiven⟩
  · rintro ⟨a, ha, hlength, hgiven⟩
    exact ⟨Nat.succ_le_succ hlength, hsplit.2 ⟨a, ha, hgiven⟩⟩

/-- A value is entered into its column, and then all that follow it. -/
theorem enter_append (hc : c ∈ columns) (hleft : c.key ∉ keysOf left) {more : List Char}
    (hv : Spells (.value v) cs) (hmore : Delimited more)
    (hafter : ∀ r, moreValues (left.map Column.field) r more = .ok (r', rest') ↔
      Filled columns left vs r r' ∧ rest' = rest) :
    ((c.field.enter r (cs ++ more)).bind fun p =>
        moreValues (left.map Column.field) p.1 p.2) = .ok (r', rest') ↔
      Filled columns (c :: left) (v :: vs) r r' ∧ rest' = rest := by
  have hbind : ((c.field.enter r (cs ++ more)).bind fun p =>
        moreValues (left.map Column.field) p.1 p.2) =
      (c.read (cs ++ more)).bind fun p => moreValues (left.map Column.field) (c.set r p.1) p.2 := by
    simp only [Column.field, Field.of]
    cases c.read (cs ++ more) <;> rfl
  rw [hbind, (h.reads c hc).bind_eq_ok_iff hv hmore, filled_cons h hc hleft]
  simp only [hafter, ← and_assoc, exists_and_right]

theorem moreValues_append (hsub : left.Sublist columns) {more : List Char}
    (hmore : Spells (.moreItems vs) more) :
    moreValues (left.map Column.field) r (more ++ rest) = .ok (r', rest') ↔
      Filled columns left vs r r' ∧ rest' = rest := by
  induction vs generalizing left more r with
  | nil =>
    cases hmore with
    | endItems hws =>
      rw [filled_nil h]
      cases left with
      | nil =>
        simp [moreValues, mark, word, skipSpace_append, skipSpace_cons, isSpace, hws, Except.map,
          eq_comm]
      | cons c left =>
        simp [moreValues, skipSpace_append, skipSpace_cons, isSpace, hws, eq_comm]
  | cons v vs ih =>
    cases hmore with
    | @nextItem ws cs more _ _ hws hv hmore =>
      cases left with
      | nil =>
        have hlength : ¬ Filled columns [] (v :: vs) r r' := fun hfilled =>
          absurd hfilled.length (by simp)
        simp [moreValues, mark, word, skipSpace_append, skipSpace_cons, isSpace, hws, Except.map,
          hlength]
      | cons c left =>
        obtain ⟨ws', c', t, rfl, hws', hc', hv⟩ := hv.trim_value
        have hdelimited := delimited_more hmore (Or.inl ⟨_, rfl⟩) rest
        have hc : c ∈ columns := hsub.subset List.mem_cons_self
        have hleft : c.key ∉ keysOf left :=
          (List.nodup_cons.1 (h.nodup.sublist (hsub.map Column.key))).1
        rw [← enter_append h hc hleft hv hdelimited fun r =>
          ih ((List.sublist_cons_self c left).trans hsub) hmore]
        obtain ⟨hspace, hsquare, -⟩ := hc'.alone
        have hcomma : isSpace ',' = false := rfl
        simp [moreValues, skipSpace_append, skipSpace_cons, hcomma, hws, hws', hspace, hsquare]
        rfl

end Sequences

/-! ## Records -/

section Records

variable {columns : List (Column σ)} {expected : String} {default r : σ} {v : Value}

/-- A value that is neither a mapping nor a sequence is not read as a record. -/
theorem record_ne_ok {fields : List (Field σ)} {cs : List Char} (hv : Spells (.value v) cs)
    (hmapping : ∀ ms, v ≠ .mapping ms) (hsequence : ∀ vs, v ≠ .sequence vs)
    {rest rest' : List Char} :
    record expected fields default (cs ++ rest) ≠ .ok (r, rest') := by
  obtain ⟨ws, c, t, rfl, hws, hc, -⟩ := hv.trim_value
  have hcurly : c ≠ '{' := fun h => (hc.distinct.2.2 h).elim fun ms hms => hmapping ms hms
  have hsquare : c ≠ '[' := fun h => (hc.distinct.2.1 h).elim fun vs hvs => hsequence vs hvs
  rw [record, skipSpace_value hws hc]
  split
  · next heq => exact absurd (List.cons.inj heq).1 hcurly
  · next heq => exact absurd (List.cons.inj heq).1 hsquare
  · rw [Ne, ofScalar_eq_ok_iff]
    simp

theorem describes_mapping_iff {ms : List Member} :
    Describes columns default (.mapping ms) r ↔ Entered columns [] ms default r :=
  ⟨fun ⟨⟨hunicode, honce⟩, hgiven⟩ => ⟨hunicode, honce, nofun, hgiven⟩,
    fun ⟨hunicode, honce, _, hgiven⟩ => ⟨⟨hunicode, honce⟩, hgiven⟩⟩

theorem describes_sequence_iff {vs : List Value} :
    Describes columns default (.sequence vs) r ↔ Filled columns columns vs default r := by
  have hlength : (keysOf columns).length = columns.length := List.length_map ..
  constructor
  · rintro ⟨hrecord, hgiven⟩
    exact ⟨hlength ▸ hrecord, hgiven⟩
  · rintro ⟨hfits, hgiven⟩
    refine ⟨?_, hgiven⟩
    rwa [← hlength] at hfits

variable (h : Lawful columns)

include h

theorem record_append_mapping {ms : List Member} {cs rest rest' : List Char}
    (hv : Spells (.value (.mapping ms)) cs) :
    record expected (columns.map Column.field) default (cs ++ rest) = .ok (r, rest') ↔
      Describes columns default (.mapping ms) r ∧ rest' = rest := by
  rw [describes_mapping_iff]
  cases hv with
  | noMembers hws hinner =>
    rw [entered_nil h]
    simp [record, skipSpace_append, skipSpace_cons, isSpace, hws, hinner, eq_comm]
  | @members ws cs more k v ms hws hm hmore =>
    obtain ⟨ws', t, rfl, hws', hm⟩ := hm.trim_member
    have hfuel : more.length < ('"' :: t ++ (more ++ rest)).length + 1 := by
      simp only [List.length_append]
      omega
    rw [← members_append h hm hmore hfuel]
    simp [record, skipSpace_append, skipSpace_cons, isSpace, hws, hws']

theorem record_append_sequence {vs : List Value} {cs rest rest' : List Char}
    (hv : Spells (.value (.sequence vs)) cs) :
    record expected (columns.map Column.field) default (cs ++ rest) = .ok (r, rest') ↔
      Describes columns default (.sequence vs) r ∧ rest' = rest := by
  rw [describes_sequence_iff]
  cases hv with
  | noItems hws hinner =>
    rw [filled_nil h]
    simp [record, values, skipSpace_append, skipSpace_cons, isSpace, hws, hinner, eq_comm]
  | @items ws cs more v vs hws hitem hmore =>
    obtain ⟨ws', c', t, rfl, hws', hc', hitem⟩ := hitem.trim_value
    have hopen : isSpace '[' = false := rfl
    obtain ⟨hspace, hsquare, -⟩ := hc'.alone
    cases columns with
    | nil =>
      have hlength : ¬ Filled [] [] (v :: vs) default r := fun hfilled =>
        absurd hfilled.length (by simp)
      simp [record, values, moreValues, mark, word, skipSpace_append, skipSpace_cons, hopen, hws,
        hws', hspace, hsquare, Ne.symm hsquare, Except.map, hlength]
    | cons c left =>
      have hc : c ∈ c :: left := List.mem_cons_self
      have hleft : c.key ∉ keysOf left := (List.nodup_cons.1 h.nodup).1
      have hdelimited := delimited_more hmore (Or.inl ⟨_, rfl⟩) rest
      rw [← enter_append h hc hleft hitem hdelimited fun r =>
        moreValues_append h (List.sublist_cons_self c left) hmore]
      simp [record, values, skipSpace_append, skipSpace_cons, hopen, hws, hws', hspace, hsquare]
      rfl

/-- A record is read as what it describes. -/
theorem reads_record : Reads (record expected (columns.map Column.field) default)
    (Describes columns default) := by
  intro v cs rest hv hrest r rest'
  cases v with
  | mapping ms => exact record_append_mapping h hv
  | sequence vs => exact record_append_sequence h hv
  | null | boolean | number | text =>
    simp only [record_ne_ok hv nofun nofun, false_iff, not_and]
    exact fun hdescribes => hdescribes.isRecord.elim

end Records

end CoreFleet.Json
