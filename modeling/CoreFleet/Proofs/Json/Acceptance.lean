import CoreFleet.Proofs.Json.Record
import Mathlib.Data.List.DropRight

/-!
# Accepted texts are documents

What a reader takes off a text is a value of the grammar (`Takes`), also where the value is only
passed over. So a text that is accepted is a document (`exists_document`), of which the meaning is
known.

`Stands` says that a text begins with a part. A reader that takes off one thing after another gives
what stands at the front of the text and what stands at the front of the rest, and these are put
together as the grammar does it.
-/

namespace CoreFleet.Json

/-- The text begins with this part, and the rest follows. -/
def Stands (part : Part) (cs rest : List Char) : Prop := ∃ t, Spells part t ∧ cs = t ++ rest

/-- The text begins with a value, and the rest follows. -/
def ValueStands (cs rest : List Char) : Prop := ∃ v, Stands (.value v) cs rest

/-- What the reader takes off a text is a value. -/
def Takes {α : Type} (read : Reader α) : Prop :=
  ∀ ⦃cs a rest⦄, read cs = .ok (a, rest) → ValueStands cs rest

/-! ## White space and words -/

section Words

variable {α β : Type} {ws cs mid rest : List Char} {c : Char} {w : List Char} {part : Part}

theorem map_eq_ok_iff {x : Except Fault α} {f : α → β} {b : β} :
    x.map f = .ok b ↔ ∃ a, x = .ok a ∧ f a = b := by
  cases x <;> simp [Except.map]

/-- What is left after white space was skipped. -/
theorem exists_spaces (h : skipSpace cs = rest) : ∃ ws, Spaces ws ∧ cs = ws ++ rest :=
  ⟨cs.takeWhile isSpace, fun _ hc => List.mem_takeWhile_imp hc,
    h ▸ (List.takeWhile_append_dropWhile).symm⟩

theorem eq_of_word (h : word w cs = .ok rest) : cs = w ++ rest := by
  fun_induction word w cs with
  | case1 => exact Except.ok.inj h
  | case2 | case4 => cases h
  | case3 w cs c ih => rw [ih h, List.cons_append]

theorem exists_mark (h : mark c cs = .ok rest) : ∃ ws, Spaces ws ∧ cs = ws ++ c :: rest :=
  exists_spaces (eq_of_word h)

/-- More white space may stand in front of a part. -/
theorem Spells.spaces (h : Spells part cs) (hws : Spaces ws) : Spells part (ws ++ cs) := by
  have happend {ws' : List Char} (h : Spaces ws') : Spaces (ws ++ ws') :=
    List.forall_mem_append.2 ⟨hws, h⟩
  induction h <;> rw [← List.append_assoc]
  case null h => exact .null (happend h)
  case boolean h => exact .boolean (happend h)
  case number h hn => exact .number (happend h) hn
  case text h htext => exact .text (happend h) htext
  case noItems h hinner => exact .noItems (happend h) hinner
  case items h hv hmore _ _ => exact .items (happend h) hv hmore
  case noMembers h hinner => exact .noMembers (happend h) hinner
  case members h hm hmore _ _ => exact .members (happend h) hm hmore
  case member h hv ih _ => exact .member ih h hv
  case endItems h => exact .endItems (happend h)
  case nextItem h hv hmore _ _ => exact .nextItem (happend h) hv hmore
  case endMembers h => exact .endMembers (happend h)
  case nextMember h hm hmore _ _ => exact .nextMember (happend h) hm hmore

theorem Stands.spaces (h : Stands part cs rest) (hws : Spaces ws) :
    Stands part (ws ++ cs) rest := by
  obtain ⟨t, ht, rfl⟩ := h
  exact ⟨ws ++ t, ht.spaces hws, (List.append_assoc ..).symm⟩

theorem Stands.of_skipSpace (h : Stands part mid rest) (hskip : skipSpace cs = mid) :
    Stands part cs rest := by
  obtain ⟨ws, hws, rfl⟩ := exists_spaces hskip
  exact h.spaces hws

theorem ValueStands.of_skipSpace (h : ValueStands mid rest) (hskip : skipSpace cs = mid) :
    ValueStands cs rest :=
  h.imp fun _ hv => hv.of_skipSpace hskip

end Words

/-! ## Numbers -/

namespace Number

variable {ds : List Nat} {cs rest : List Char} {exponent : Option (Bool × List Nat)}

theorem digits_spec (cs : List Char) : (∀ d ∈ (digits cs).1, d < 10) ∧
    cs = (digits cs).1.map Numeral.digitChar ++ (digits cs).2 := by
  fun_induction digits cs with
  | case1 => exact ⟨nofun, rfl⟩
  | case2 c cs d hd ih =>
    obtain ⟨hlt, rfl⟩ := Numeral.digit?_eq_some_iff.1 hd
    exact ⟨List.forall_mem_cons.2 ⟨hlt, ih.1⟩, congrArg (_ :: ·) ih.2⟩
  | case3 => exact ⟨nofun, rfl⟩

theorem exists_digits (h : someDigits cs = .ok (ds, rest)) :
    ∃ t, Digits ds t ∧ cs = t ++ rest := by
  obtain ⟨hsmall, hcs⟩ := digits_spec cs
  unfold someDigits at h
  split at h
  · cases h
  · cases h
  · next _ hnone hnone' =>
    have hread : digits cs = (ds, rest) := Except.ok.inj h
    rw [hread] at hsmall hcs
    refine ⟨_, ⟨?_, hsmall, rfl⟩, hcs⟩
    rintro rfl
    cases rest with
    | nil => exact hnone hread
    | cons c rest => exact hnone' c rest hread

theorem exists_whole (h : wholePart cs = .ok (ds, rest)) : ∃ t, Whole ds t ∧ cs = t ++ rest := by
  unfold wholePart at h
  split at h
  · cases h
  · next hleading =>
    obtain ⟨t, ht, hcs⟩ := exists_digits h
    refine ⟨t, ⟨ht, fun hzero => ?_⟩, hcs⟩
    obtain ⟨ds, rfl⟩ := List.head?_eq_some_iff.1 hzero
    cases ds with
    | nil => rfl
    | cons d ds => exact absurd h (hleading _ _ _)

theorem exists_fraction (h : fractionPart cs = .ok (ds, rest)) :
    ∃ t, Fraction ds t ∧ cs = t ++ rest := by
  unfold fractionPart at h
  split at h
  · obtain ⟨t, ht, rfl⟩ := exists_digits h
    exact ⟨'.' :: t, .present ht, rfl⟩
  · obtain ⟨rfl, rfl⟩ := Prod.mk.inj (Except.ok.inj h)
    exact ⟨[], .absent, rfl⟩

theorem exists_sign (cs : List Char) :
    ∃ t, Sign (exponentSign cs).1 t ∧ cs = t ++ (exponentSign cs).2 := by
  unfold exponentSign
  split
  · exact ⟨['+'], .plus, rfl⟩
  · exact ⟨['-'], .minus, rfl⟩
  · exact ⟨[], .none, rfl⟩

theorem exists_exponent (h : exponentPart cs = .ok (exponent, rest)) :
    ∃ t, Exponent exponent t ∧ cs = t ++ rest := by
  unfold exponentPart at h
  split at h
  · next c cs =>
    split at h
    · next hmark =>
      split at h
      · next ds rest' hdigits =>
        obtain ⟨rfl, rfl⟩ := Prod.mk.inj (Except.ok.inj h)
        obtain ⟨sign, hsign, hcs⟩ := exists_sign cs
        obtain ⟨t, ht, hrest⟩ := exists_digits hdigits
        refine ⟨c :: (sign ++ t), .given hmark hsign ht, ?_⟩
        rw [List.cons_append, List.append_assoc, ← hrest, ← hcs]
      · cases h
    · obtain ⟨rfl, rfl⟩ := Prod.mk.inj (Except.ok.inj h)
      exact ⟨[], .absent, rfl⟩
  · obtain ⟨rfl, rfl⟩ := Prod.mk.inj (Except.ok.inj h)
    exact ⟨[], .absent, rfl⟩

theorem sign_spec (cs : List Char) : cs = (if (sign cs).1 then ['-'] else []) ++ (sign cs).2 := by
  unfold sign
  split <;> rfl

/-- A numeral is taken off a text. -/
theorem exists_numeral {n : Number} (h : read cs = .ok (n, rest)) :
    ∃ t, n.Spells t ∧ cs = t ++ rest := by
  have hread : read cs = (wholePart (sign cs).2).bind fun p => (fractionPart p.2).bind fun q =>
      (exponentPart q.2).bind fun s => .ok (⟨(sign cs).1, p.1, q.1, s.1⟩, s.2) := rfl
  rw [hread] at h
  simp only [bind_eq_ok_iff, Prod.exists] at h
  obtain ⟨whole, cs₁, hwhole, fraction, cs₂, hfraction, exponent, cs₃, hexponent, heq⟩ := h
  obtain ⟨rfl, rfl⟩ := Prod.mk.inj (Except.ok.inj heq)
  obtain ⟨w, hw, hcs⟩ := exists_whole hwhole
  obtain ⟨f, hf, rfl⟩ := exists_fraction hfraction
  obtain ⟨e, he, rfl⟩ := exists_exponent hexponent
  refine ⟨_, .intro hw hf he, ?_⟩
  rw [List.append_assoc, List.append_assoc, List.append_assoc, ← hcs]
  exact sign_spec cs

end Number

/-! ## Texts -/

namespace Text

variable {ps : List Piece} {s cs rest : List Char}

/-- What is taken apart is spelled by the text up to its closing quote. -/
theorem exists_pieces (h : (pieces cs).2 = .ok rest) :
    ∃ t, Spells (pieces cs).1 t ∧ cs = t ++ '"' :: rest := by
  fun_induction pieces cs with
  | case1 | case3 | case5 | case6 | case8 | case9 => cases h
  | case2 rest' =>
    obtain rfl := Except.ok.inj h
    exact ⟨[], .nil, rfl⟩
  | case4 a b c d cs n hunit ih =>
    obtain ⟨t, ht, rfl⟩ := ih h
    exact ⟨_, .unit hunit ht, rfl⟩
  | case7 letter cs _ _ c hescape ih =>
    obtain ⟨t, ht, rfl⟩ := ih h
    exact ⟨_, .escape hescape ht, rfl⟩
  | case10 c cs hquote hlast _ _ hescape hplain ih =>
    have hc : c ≠ '\\' := by
      rintro rfl
      cases cs with
      | nil => exact hlast rfl rfl
      | cons => exact hescape _ _ rfl rfl
    obtain ⟨t, ht, rfl⟩ := ih h
    exact ⟨_, .plain (Nat.le_of_not_lt hplain) hquote hc ht, rfl⟩

/-- Nothing is put together without the end of the text. -/
theorem ending_of_join {ending : Except Fault (List Char)} (h : join ending ps = .ok (s, rest)) :
    ending = .ok rest := by
  fun_induction join ending ps generalizing s with
  | case1 =>
    obtain ⟨rest', rfl, heq⟩ := map_eq_ok_iff.1 h
    rw [(Prod.mk.inj heq).2]
  | case2 _ _ ih | case4 _ _ _ _ _ _ ih | case9 _ _ _ _ ih =>
    obtain ⟨⟨s', rest'⟩, hjoin, heq⟩ := map_eq_ok_iff.1 h
    obtain ⟨-, rfl⟩ := Prod.mk.inj heq
    exact ih hjoin
  | case3 | case5 | case6 | case7 | case8 => cases h

theorem pass_of_read (h : read cs = .ok (s, rest)) : pass cs = .ok rest := ending_of_join h

end Text

/-! ## Scalars -/

section Scalars

variable {cs rest : List Char}

/-- The rest of a word that stands for a value comes after its first character. -/
theorem stands_word {c : Char} {w : List Char} {v : Value} (hv : Spells (.value v) (c :: w))
    (h : word w cs = .ok rest) : ValueStands (c :: cs) rest :=
  ⟨v, c :: w, hv, congrArg (c :: ·) (eq_of_word h)⟩

theorem spells_null : Spells (.value .null) ['n', 'u', 'l', 'l'] :=
  have hnil : Spaces [] := nofun
  .null hnil

theorem spells_boolean (b : Bool) : Spells (.value (.boolean b)) (booleanWord b) :=
  have hnil : Spaces [] := nofun
  .boolean hnil

theorem stands_key (h : Text.pass cs = .ok rest) :
    ∃ s, Stands (.value (.text s)) ('"' :: cs) rest := by
  have hnil : Spaces [] := nofun
  obtain ⟨t, ht, rfl⟩ := Text.exists_pieces h
  exact ⟨_, _, .text hnil ht, by simp⟩

theorem stands_text (h : Text.pass cs = .ok rest) : ValueStands ('"' :: cs) rest :=
  let ⟨_, hs⟩ := stands_key h
  ⟨_, hs⟩

theorem stands_number {n : Number} (h : Number.read cs = .ok (n, rest)) : ValueStands cs rest :=
  have hnil : Spaces [] := nofun
  let ⟨t, ht, hcs⟩ := Number.exists_numeral h
  ⟨_, t, .number hnil ht, hcs⟩

/-- What is found is a value, or the opening of one. -/
theorem stands_of_scalar {found : Found} (h : scalar cs = .ok (found, rest)) :
    found = .sequence ∨ found = .mapping ∨ ValueStands cs rest := by
  unfold scalar at h
  split at h
  · cases h
  · next c cs' heq =>
    have hword {first : Char} {w : List Char} {v : Value} {found' : Found} (hc : c = first)
        (hv : Spells (.value v) (first :: w))
        (h : (word w cs').map (fun rest => (found', rest)) = .ok (found, rest)) :
        ValueStands cs rest := by
      obtain ⟨rest', hword, hrest⟩ := map_eq_ok_iff.1 h
      obtain ⟨-, rfl⟩ := Prod.mk.inj hrest
      exact (stands_word hv hword).of_skipSpace (hc ▸ heq)
    split_ifs at h with hn ht hf hquote hsquare hcurly hnumber
    · exact .inr (.inr (hword hn spells_null h))
    · exact .inr (.inr (hword ht (spells_boolean true) h))
    · exact .inr (.inr (hword hf (spells_boolean false) h))
    · obtain ⟨⟨s, rest'⟩, hread, hrest⟩ := map_eq_ok_iff.1 h
      obtain ⟨-, rfl⟩ := Prod.mk.inj hrest
      exact .inr (.inr ((stands_text (Text.pass_of_read hread)).of_skipSpace (hquote ▸ heq)))
    · exact .inl (Prod.mk.inj (Except.ok.inj h)).1.symm
    · exact .inr (.inl (Prod.mk.inj (Except.ok.inj h)).1.symm)
    · split at h
      · next n rest' hread =>
        obtain ⟨found, -, hrest⟩ := map_eq_ok_iff.1 h
        obtain ⟨-, rfl⟩ := Prod.mk.inj hrest
        exact .inr (.inr ((stands_number hread).of_skipSpace heq))
      · cases h

theorem takes_ofScalar {α : Type} {accept : Found → Except Misfit α}
    (hsequence : ∀ a, accept .sequence ≠ .ok a) (hmapping : ∀ a, accept .mapping ≠ .ok a) :
    Takes (ofScalar accept) := by
  intro cs a rest h
  obtain ⟨found, hfound, haccept⟩ := ofScalar_eq_ok_iff.1 h
  rcases stands_of_scalar hfound with rfl | rfl | hv
  · exact absurd haccept (hsequence a)
  · exact absurd haccept (hmapping a)
  · exact hv

theorem takes_text : Takes text := takes_ofScalar nofun nofun

theorem takes_natural {bound : Nat} {expected : String} : Takes (natural bound expected) :=
  takes_ofScalar nofun nofun

theorem takes_optional {α : Type} {read : Reader α} (h : Takes read) : Takes (optional read) := by
  intro cs o rest hread
  unfold optional at hread
  split at hread
  · next cs' heq =>
    obtain ⟨rest', hword, hrest⟩ := map_eq_ok_iff.1 hread
    obtain ⟨-, rfl⟩ := Prod.mk.inj hrest
    exact (stands_word spells_null hword).of_skipSpace heq
  · obtain ⟨⟨a, rest'⟩, hvalue, hrest⟩ := map_eq_ok_iff.1 hread
    obtain ⟨-, rfl⟩ := Prod.mk.inj hrest
    exact (h hvalue).of_skipSpace rfl

theorem stands_of_passScalar (h : passScalar cs = .ok rest) : ValueStands cs rest := by
  unfold passScalar at h
  split at h
  · cases h
  · next c cs =>
    split_ifs at h with hn ht hf hquote hnumber
    · exact hn ▸ stands_word spells_null h
    · exact ht ▸ stands_word (spells_boolean true) h
    · exact hf ▸ stands_word (spells_boolean false) h
    · exact hquote ▸ stands_text h
    · unfold passNumber at h
      split at h
      · next n rest' hread =>
        obtain rfl := Except.ok.inj h
        exact stands_number hread
      · cases h

end Scalars

/-! ## Entries of brackets -/

namespace Bracket

/-- The opening mark of a bracket. -/
def opening : Bracket → Char
  | square => '['
  | curly => '{'

/-- The text begins with an entry. -/
def Entry (b : Bracket) (cs rest : List Char) : Prop :=
  match b with
  | square => ValueStands cs rest
  | curly => ∃ k v, Stands (.member k v) cs rest

/-- The text begins with what follows an entry, up to the closing mark. -/
def More (b : Bracket) (cs rest : List Char) : Prop :=
  match b with
  | square => ∃ vs, Stands (.moreItems vs) cs rest
  | curly => ∃ ms, Stands (.moreMembers ms) cs rest

/-- The text begins with an entry and what follows it, up to the closing mark. -/
def Entries (b : Bracket) (cs rest : List Char) : Prop := ∃ mid, b.Entry cs mid ∧ b.More mid rest

variable {b : Bracket} {cs cs' mid rest : List Char}

theorem Entries.of_skipSpace (h : b.Entries cs' rest) (hskip : skipSpace cs = cs') :
    b.Entries cs rest := by
  obtain ⟨mid, hentry, hmore⟩ := h
  refine ⟨mid, ?_, hmore⟩
  cases b with
  | square => exact ValueStands.of_skipSpace hentry hskip
  | curly =>
    obtain ⟨k, v, hm⟩ := hentry
    exact ⟨k, v, hm.of_skipSpace hskip⟩

theorem more_of_closing (h : skipSpace cs = b.closing :: rest) : b.More cs rest := by
  obtain ⟨ws, hws, rfl⟩ := exists_spaces h
  cases b with
  | square => exact ⟨_, _, .endItems hws, by simp [closing]⟩
  | curly => exact ⟨_, _, .endMembers hws, by simp [closing]⟩

theorem Entries.more (h : b.Entries cs' rest) (hcomma : skipSpace cs = ',' :: cs') :
    b.More cs rest := by
  obtain ⟨ws, hws, rfl⟩ := exists_spaces hcomma
  obtain ⟨mid, hentry, hmore⟩ := h
  cases b with
  | square =>
    obtain ⟨⟨v, t, ht, rfl⟩, vs, t', ht', rfl⟩ := And.intro hentry hmore
    exact ⟨_, _, .nextItem hws ht ht', by simp⟩
  | curly =>
    obtain ⟨⟨k, v, t, ht, rfl⟩, ms, t', ht', rfl⟩ := And.intro hentry hmore
    exact ⟨_, _, .nextMember hws ht ht', by simp⟩

/-- Entries between brackets make up a value. -/
theorem Entries.value (h : b.Entries cs rest) : ValueStands (b.opening :: cs) rest := by
  have hnil : Spaces [] := nofun
  obtain ⟨mid, hentry, hmore⟩ := h
  cases b with
  | square =>
    obtain ⟨⟨v, t, ht, rfl⟩, vs, t', ht', rfl⟩ := And.intro hentry hmore
    exact ⟨_, _, .items hnil ht ht', by simp [opening]⟩
  | curly =>
    obtain ⟨⟨k, v, t, ht, rfl⟩, ms, t', ht', rfl⟩ := And.intro hentry hmore
    exact ⟨_, _, .members hnil ht ht', by simp [opening]⟩

theorem value_of_closing (h : skipSpace cs = b.closing :: rest) :
    ValueStands (b.opening :: cs) rest := by
  have hnil : Spaces [] := nofun
  obtain ⟨ws, hws, rfl⟩ := exists_spaces h
  cases b with
  | square => exact ⟨_, _, .noItems hnil hws, by simp [opening, closing]⟩
  | curly => exact ⟨_, _, .noMembers hnil hws, by simp [opening, closing]⟩

/-- A key, a colon and a value make up a member. -/
theorem entry_of_member {key : List Char} (hopen : openKey cs = .ok key)
    (hkey : Text.pass key = .ok mid) (hcolon : mark ':' mid = .ok cs')
    (hv : ValueStands cs' rest) : curly.Entry cs rest := by
  obtain ⟨ws, hws, rfl⟩ := exists_mark hopen
  obtain ⟨s, hs⟩ := stands_key hkey
  obtain ⟨k, hk, hmid⟩ := hs.spaces hws
  obtain ⟨ws', hws', rfl⟩ := exists_mark hcolon
  obtain ⟨v, t, ht, rfl⟩ := hv
  rw [hmid]
  exact ⟨_, _, _, .member hk hws' ht, by simp⟩

end Bracket

/-! ## Values nobody asked for -/

theorem more_of_passMore {fuel : Nat} {b : Bracket} {cs rest : List Char}
    (hentries : ∀ cs, passEntry fuel b cs = .ok rest → b.Entries cs rest)
    (h : passMore fuel b cs = .ok rest) : b.More cs rest := by
  unfold passMore at h
  split at h
  · next cs' heq => exact (hentries _ h).more heq
  · next c cs' _ heq =>
    split at h
    · next hc =>
      obtain rfl := Except.ok.inj h
      exact Bracket.more_of_closing (hc ▸ heq)
    · cases h
  · cases h

/-- What is passed over is a value or entries, whatever the fuel. -/
theorem passed_stands (fuel : Nat) :
    (∀ cs rest, passValue fuel cs = .ok rest → ValueStands cs rest) ∧
      ∀ b cs rest, passEntry fuel b cs = .ok rest → b.Entries cs rest := by
  -- values and entries pass over each other, and each call has less fuel than its caller
  induction fuel with
  | zero => exact ⟨nofun, nofun⟩
  | succ fuel ih =>
    obtain ⟨ihvalue, ihentry⟩ := ih
    refine ⟨fun cs rest h => ?_, fun b cs rest h => ?_⟩
    · unfold passValue at h
      split at h
      · next cs' heq =>
        refine .of_skipSpace ?_ heq
        split at h
        · next heq' =>
          obtain rfl := Except.ok.inj h
          exact Bracket.value_of_closing (b := .square) heq'
        · exact ((ihentry _ _ _ h).of_skipSpace rfl).value
      · next cs' heq =>
        refine .of_skipSpace ?_ heq
        split at h
        · next heq' =>
          obtain rfl := Except.ok.inj h
          exact Bracket.value_of_closing (b := .curly) heq'
        · exact ((ihentry _ _ _ h).of_skipSpace rfl).value
      · exact (stands_of_passScalar h).of_skipSpace rfl
    · rw [passEntry_succ] at h
      simp only [bind_eq_ok_iff] at h
      obtain ⟨mid, ⟨cs', hkey, hvalue⟩, hmore⟩ := h
      have hv := ihvalue _ _ hvalue
      refine ⟨mid, ?_, more_of_passMore (fun cs => ihentry b cs rest) hmore⟩
      cases b with
      | square =>
        obtain rfl := Except.ok.inj hkey
        exact hv
      | curly =>
        have hpass : passKey .curly cs =
            (openKey cs).bind fun cs => (Text.pass cs).bind (mark ':') := rfl
        rw [hpass] at hkey
        simp only [bind_eq_ok_iff] at hkey
        obtain ⟨key, hopen, mid', htext, hcolon⟩ := hkey
        exact Bracket.entry_of_member hopen htext hcolon hv

theorem stands_of_pass {cs rest : List Char} (h : pass cs = .ok rest) : ValueStands cs rest :=
  (passed_stands _).1 cs rest h

/-! ## Sequences -/

section Sequences

variable {α : Type} {read : Reader α}

theorem entries_of_items (h : Takes read) (fuel : List Char → Nat) {cs rest : List Char}
    {as : List α}
    (hmore : ∀ cs as, moreItems read (fuel cs) cs = .ok (as, rest) → Bracket.square.More cs rest)
    (hread : ((read cs).bind fun p => (moreItems read (fuel p.2) p.2).bind fun q =>
      .ok (p.1 :: q.1, q.2)) = .ok (as, rest)) : Bracket.square.Entries cs rest := by
  simp only [bind_eq_ok_iff, Prod.exists] at hread
  obtain ⟨a, mid, hitem, as', rest', hitems, heq⟩ := hread
  obtain ⟨-, rfl⟩ := Prod.mk.inj (Except.ok.inj heq)
  exact ⟨mid, h hitem, hmore _ _ hitems⟩

theorem more_of_moreItems (h : Takes read) {fuel : Nat} {cs rest : List Char} {as : List α}
    (hread : moreItems read fuel cs = .ok (as, rest)) : Bracket.square.More cs rest := by
  induction fuel generalizing cs as with
  | zero => cases hread
  | succ fuel ih =>
    unfold moreItems at hread
    split at hread
    · next heq =>
      obtain ⟨-, rfl⟩ := Prod.mk.inj (Except.ok.inj hread)
      exact Bracket.more_of_closing heq
    · next heq => exact (entries_of_items h (fun _ => fuel) (fun _ _ => ih) hread).more heq
    · cases hread
    · cases hread

theorem takes_sequence (h : Takes read) : Takes (sequence read) := by
  intro cs as rest hread
  unfold sequence at hread
  split at hread
  · next cs' heq =>
    refine .of_skipSpace ?_ heq
    split at hread
    · next heq' =>
      obtain ⟨-, rfl⟩ := Prod.mk.inj (Except.ok.inj hread)
      exact Bracket.value_of_closing (b := .square) heq'
    · have hentries := entries_of_items h (fun cs => cs.length + 1)
        (fun _ _ => more_of_moreItems h) hread
      exact (hentries.of_skipSpace rfl).value
  · exact (takes_ofScalar nofun nofun hread).of_skipSpace rfl

end Sequences

/-! ## Records -/

section Records

variable {σ : Type} {fields : List (Field σ)} {cs rest : List Char} {r r' : σ}

/-- What the fields enter is a value. -/
def TakeEach (fields : List (Field σ)) : Prop := ∀ f ∈ fields, ∀ r, Takes (f.enter r)

theorem takeEach_nil : TakeEach ([] : List (Field σ)) := nofun

theorem TakeEach.cons {α : Type} {read : Reader α} {key : String} {set : σ → α → σ}
    (h : Takes read) (hfields : TakeEach fields) : TakeEach (.of key read set :: fields) := by
  refine List.forall_mem_cons.2 ⟨fun r cs r' rest hread => ?_, hfields⟩
  obtain ⟨⟨a, rest'⟩, hvalue, heq⟩ := map_eq_ok_iff.1 hread
  obtain ⟨-, rfl⟩ := Prod.mk.inj heq
  exact h hvalue

theorem colon_of_member (h : TakeEach fields) {key : String} {seen seen' : List String}
    (hread : member fields key seen r cs = .ok (seen', r', rest)) :
    ∃ mid, mark ':' cs = .ok mid ∧ ValueStands mid rest := by
  unfold member at hread
  split at hread
  · next f hf =>
    split at hread
    · cases hread
    · obtain ⟨mid, hcolon, hread⟩ := bind_eq_ok_iff.1 hread
      obtain ⟨⟨r₁, rest'⟩, henter, heq⟩ := bind_eq_ok_iff.1 hread
      obtain ⟨-, hrest⟩ := Prod.mk.inj (Except.ok.inj heq)
      obtain ⟨-, rfl⟩ := Prod.mk.inj hrest
      exact ⟨mid, hcolon, h f (List.mem_of_find?_eq_some hf) r henter⟩
  · obtain ⟨mid, hcolon, hread⟩ := bind_eq_ok_iff.1 hread
    obtain ⟨rest', hpass, heq⟩ := bind_eq_ok_iff.1 hread
    obtain ⟨-, hrest⟩ := Prod.mk.inj (Except.ok.inj heq)
    obtain ⟨-, rfl⟩ := Prod.mk.inj hrest
    exact ⟨mid, hcolon, stands_of_pass hpass⟩

theorem entries_of_members (h : TakeEach fields) {fuel : Nat} {seen : List String}
    (hread : members fields fuel seen r cs = .ok (r', rest)) :
    Bracket.curly.Entries cs rest := by
  induction fuel generalizing cs seen r with
  | zero => cases hread
  | succ fuel ih =>
    rw [members_succ] at hread
    simp only [bind_eq_ok_iff, Prod.exists] at hread
    obtain ⟨key, hopen, s, mid, htext, seen', r₁, cs', hmember, hafter⟩ := hread
    obtain ⟨mid', hcolon, hv⟩ := colon_of_member h hmember
    refine ⟨cs', Bracket.entry_of_member hopen (Text.pass_of_read htext) hcolon hv, ?_⟩
    unfold afterMember at hafter
    split at hafter
    · next heq =>
      obtain ⟨-, rfl⟩ := Prod.mk.inj (Except.ok.inj hafter)
      exact Bracket.more_of_closing heq
    · next heq => exact (ih hafter).more heq
    · cases hafter
    · cases hafter

theorem more_of_moreValues (h : TakeEach fields)
    (hread : moreValues fields r cs = .ok (r', rest)) : Bracket.square.More cs rest := by
  induction fields generalizing cs r with
  | nil =>
    obtain ⟨rest', hmark, heq⟩ := map_eq_ok_iff.1 hread
    obtain ⟨-, rfl⟩ := Prod.mk.inj heq
    obtain ⟨ws, hws, rfl⟩ := exists_mark hmark
    exact ⟨_, _, .endItems hws, by simp⟩
  | cons f fields ih =>
    obtain ⟨hf, hfields⟩ := List.forall_mem_cons.1 h
    unfold moreValues at hread
    split at hread
    · next heq =>
      obtain ⟨-, rfl⟩ := Prod.mk.inj (Except.ok.inj hread)
      exact Bracket.more_of_closing heq
    · next cs' heq =>
      split at hread
      · cases hread
      · obtain ⟨⟨r₁, mid⟩, henter, hmore⟩ := bind_eq_ok_iff.1 hread
        have hentries : Bracket.square.Entries (skipSpace cs') rest :=
          ⟨mid, hf r henter, ih hfields hmore⟩
        exact (hentries.of_skipSpace rfl).more heq
    · cases hread
    · cases hread

theorem value_of_values (h : TakeEach fields) (hread : values fields r cs = .ok (r', rest)) :
    ValueStands ('[' :: cs) rest := by
  unfold values at hread
  split at hread
  · next heq =>
    obtain ⟨-, rfl⟩ := Prod.mk.inj (Except.ok.inj hread)
    exact Bracket.value_of_closing (b := .square) heq
  · obtain ⟨hf, hfields⟩ := List.forall_mem_cons.1 h
    obtain ⟨⟨r₁, mid⟩, henter, hmore⟩ := bind_eq_ok_iff.1 hread
    have hentries : Bracket.square.Entries (skipSpace cs) rest :=
      ⟨mid, hf r henter, more_of_moreValues hfields hmore⟩
    exact (hentries.of_skipSpace rfl).value
  · obtain ⟨rest', hmark, heq⟩ := map_eq_ok_iff.1 hread
    obtain ⟨-, rfl⟩ := Prod.mk.inj heq
    have hclosing : skipSpace (skipSpace cs) = ']' :: rest' := eq_of_word hmark
    rw [skipSpace, skipSpace, List.dropWhile_idempotent] at hclosing
    exact Bracket.value_of_closing (b := .square) hclosing

theorem takes_record (h : TakeEach fields) {expected : String} {default : σ} :
    Takes (record expected fields default) := by
  intro cs r rest hread
  unfold record at hread
  split at hread
  · next cs' heq =>
    refine .of_skipSpace ?_ heq
    split at hread
    · next heq' =>
      obtain ⟨-, rfl⟩ := Prod.mk.inj (Except.ok.inj hread)
      exact Bracket.value_of_closing (b := .curly) heq'
    · exact ((entries_of_members h hread).of_skipSpace rfl).value
  · next cs' heq => exact (value_of_values h hread).of_skipSpace heq
  · exact (takes_ofScalar nofun nofun hread).of_skipSpace rfl

end Records

/-! ## Documents -/

/-- A text that is accepted is a document. -/
theorem exists_document {α : Type} {read : Reader α} (h : Takes read) {cs : List Char} {a : α}
    (hok : document read cs = .ok a) : ∃ v, Document v cs := by
  unfold document at hok
  split at hok
  · next a' rest heq =>
    split at hok
    · next hempty =>
      obtain ⟨v, t, ht, rfl⟩ := h heq
      obtain ⟨ws, hws, rfl⟩ := exists_spaces (List.isEmpty_iff.1 hempty)
      exact ⟨v, t, ws, by rw [List.append_nil], ht, hws⟩
    · cases hok
  · cases hok

end CoreFleet.Json
