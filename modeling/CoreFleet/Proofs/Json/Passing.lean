import CoreFleet.Proofs.Json.Tokens

/-!
# Passing over values

A value that nobody asked for is passed over, whatever it is and however deep it is nested
(`pass_append`). The reader carries fuel, twice the length of the text, and each entry and each
bracket that it opens has a character of its own.
-/

namespace CoreFleet.Json

variable {cs rest : List Char} {v : Value} {part : Part}

/-- What follows an item or a member delimits it. -/
theorem delimited_more (h : Spells part cs)
    (hpart : (∃ vs, part = .moreItems vs) ∨ ∃ ms, part = .moreMembers ms) (rest : List Char) :
    Delimited (cs ++ rest) := by
  have hmark {ws after : List Char} {c : Char} (hws : Spaces ws) (hc : c ∈ [',', ']', '}']) :
      Delimited (ws ++ c :: after ++ rest) := by
    rw [List.append_assoc]
    have hends : ∀ c ∈ [',', ']', '}'],
        Numeral.digit? c = none ∧ c ≠ '.' ∧ c ≠ 'e' ∧ c ≠ 'E' := by simp [Numeral.digit?]
    exact delimited_spaces hws (delimited_cons (hends c hc))
  cases h with
  | endItems hws | endMembers hws | nextItem hws | nextMember hws => exact hmark hws (by simp)
  | _ => simp at hpart

/-- What is done after a value that is an entry or part of one : the next entry is passed over, or
the bracket closes. -/
def passMore (fuel : Nat) (b : Bracket) (cs : List Char) : Except Fault (List Char) :=
  match skipSpace cs with
  | ',' :: rest => passEntry fuel b rest
  | c :: rest => if c = b.closing then .ok rest else .error .malformed
  | [] => .error .incomplete

theorem passEntry_succ (fuel : Nat) (b : Bracket) (cs : List Char) :
    passEntry (fuel + 1) b cs =
      ((passKey b cs).bind (passValue fuel)).bind (passMore fuel b) := by
  rw [passEntry]
  cases passKey b cs with
  | error e => rfl
  | ok cs =>
    dsimp only [Except.bind]
    cases passValue fuel cs <;> rfl

/-- The part is passed over with as much fuel as twice its length. -/
def Passes (part : Part) (cs : List Char) : Prop :=
  ∀ fuel rest, 2 * cs.length ≤ fuel →
    match part with
    | .value _ => Delimited rest → passValue fuel (cs ++ rest) = .ok rest
    | .member _ _ => Delimited rest →
      (passKey .curly (cs ++ rest)).bind (passValue fuel) = .ok rest
    | .moreItems _ => passMore fuel .square (cs ++ rest) = .ok rest
    | .moreMembers _ => passMore fuel .curly (cs ++ rest) = .ok rest

/-- A scalar is passed over by the character that it begins with. -/
theorem passScalar_append (h : Spells (.value v) cs) (hrest : Delimited rest)
    (hv : ∀ vs ms, v ≠ .sequence vs ∧ v ≠ .mapping ms) :
    ∃ c t, skipSpace (cs ++ rest) = c :: t ∧ c ≠ '[' ∧ c ≠ '{' ∧
      passScalar (c :: t) = .ok rest := by
  cases h with
  | null hws =>
    refine ⟨'n', ['u', 'l', 'l'] ++ rest, ?_, by decide, by decide, word_append _ rest⟩
    rw [List.append_assoc, skipSpace_append hws]
    rfl
  | @boolean ws b hws =>
    rw [List.append_assoc, skipSpace_append hws]
    cases b with
    | true => exact ⟨'t', _, rfl, by decide, by decide, word_append ['r', 'u', 'e'] rest⟩
    | false => exact ⟨'f', _, rfl, by decide, by decide, word_append ['a', 'l', 's', 'e'] rest⟩
  | number hws hn =>
    have hread := Number.read_append hn hrest
    obtain ⟨c, cs, rfl, hc⟩ := hn.starts
    obtain ⟨hspace, hother⟩ := starts_alone hc
    simp only [List.mem_cons, List.not_mem_nil, or_false, not_or] at hother
    refine ⟨c, cs ++ rest, ?_, hother.2.2.2.2.1, hother.2.2.2.2.2.1, ?_⟩
    · rw [List.append_assoc, skipSpace_append hws]
      exact skipSpace_cons hspace _
    · simp only [passScalar, hother, hc, if_false, if_true]
      rw [passNumber, ← List.cons_append, hread]
  | @text ws cs ps hws htext =>
    refine ⟨'"', cs ++ '"' :: rest, ?_, by decide, by decide, Text.pass_append htext rest⟩
    simp [skipSpace_append, skipSpace_cons, isSpace, hws]
  | noItems | items => exact absurd rfl (hv _ []).1
  | noMembers | members => exact absurd rfl (hv [] _).2

theorem passes_scalar (h : Spells (.value v) cs)
    (hv : ∀ vs ms, v ≠ .sequence vs ∧ v ≠ .mapping ms) : Passes (.value v) cs := by
  intro fuel rest hfuel hrest
  obtain ⟨ws, c, t, rfl, -⟩ := h.trim_value
  obtain ⟨c, t, hskip, hsquare, hcurly, hpass⟩ := passScalar_append h hrest hv
  simp only [List.length_append, List.length_cons] at hfuel
  obtain ⟨fuel, rfl⟩ := Nat.exists_eq_add_of_le' (show 0 < fuel by omega)
  rw [passValue, hskip]
  split
  · next heq => exact absurd (List.cons.inj heq).1 hsquare
  · next heq => exact absurd (List.cons.inj heq).1 hcurly
  · exact hpass

theorem passValue_spaces {ws : List Char} (h : Spaces ws) (fuel : Nat) (cs : List Char) :
    passValue fuel (ws ++ cs) = passValue fuel cs := by
  cases fuel with
  | zero => rfl
  | succ fuel => simp only [passValue, skipSpace_append h]

theorem passEntry_spaces {ws : List Char} (h : Spaces ws) (fuel : Nat) (b : Bracket)
    (cs : List Char) : passEntry fuel b (ws ++ cs) = passEntry fuel b cs := by
  cases fuel with
  | zero => rfl
  | succ fuel =>
    rw [passEntry_succ, passEntry_succ]
    cases b with
    | square => simp only [passKey, Except.bind, passValue_spaces h]
    | curly => simp only [passKey, openKey, mark, skipSpace_append h]

/-- An entry is passed over, and then all that follow it. -/
theorem passEntry_append {fuel : Nat} {b : Bracket} {more : List Char}
    (hentry : (passKey b (cs ++ (more ++ rest))).bind (passValue fuel) = .ok (more ++ rest))
    (hmore : passMore fuel b (more ++ rest) = .ok rest) :
    passEntry (fuel + 1) b (cs ++ (more ++ rest)) = .ok rest := by
  rw [passEntry_succ, hentry]
  exact hmore

theorem passes (h : Spells part cs) : Passes part cs := by
  induction h with
  | null hws => exact passes_scalar (.null hws) (by simp)
  | boolean hws => exact passes_scalar (.boolean hws) (by simp)
  | number hws hn => exact passes_scalar (.number hws hn) (by simp)
  | text hws htext => exact passes_scalar (.text hws htext) (by simp)
  | noItems hws hinner | noMembers hws hinner =>
    intro fuel rest hfuel hrest
    simp only [List.length_append, List.length_cons] at hfuel
    obtain ⟨fuel, rfl⟩ := Nat.exists_eq_add_of_le' (show 0 < fuel by omega)
    simp [passValue, skipSpace_append, skipSpace_cons, isSpace, hws, hinner]
  | @items ws cs more v vs hws hv hmore ihv ihmore =>
    intro fuel rest hfuel hrest
    simp only [List.length_append, List.length_cons] at hfuel
    obtain ⟨fuel, rfl⟩ := Nat.exists_eq_add_of_le' (show 1 < fuel by omega)
    have hentry := ihv fuel (more ++ rest) (by omega)
      (delimited_more hmore (Or.inl ⟨_, rfl⟩) rest)
    have hpass := passEntry_append (b := .square) hentry (ihmore fuel rest (by omega))
    obtain ⟨ws', c, t, rfl, hws', hbegins, -⟩ := hv.trim_value
    obtain ⟨hc, hsquare, -⟩ := hbegins.alone
    rw [List.append_assoc, passEntry_spaces hws', List.cons_append] at hpass
    have hopen : isSpace '[' = false := rfl
    simpa [passValue, skipSpace_append, skipSpace_cons, hopen, hws, hws', hc, hsquare] using hpass
  | @members ws cs more k v ms hws hm hmore ihm ihmore =>
    intro fuel rest hfuel hrest
    simp only [List.length_append, List.length_cons] at hfuel
    obtain ⟨fuel, rfl⟩ := Nat.exists_eq_add_of_le' (show 1 < fuel by omega)
    have hentry := ihm fuel (more ++ rest) (by omega)
      (delimited_more hmore (Or.inr ⟨_, rfl⟩) rest)
    have hpass := passEntry_append (b := .curly) hentry (ihmore fuel rest (by omega))
    obtain ⟨ws', t, rfl, hws', -⟩ := hm.trim_member
    rw [List.append_assoc, passEntry_spaces hws', List.cons_append] at hpass
    simpa [passValue, skipSpace_append, skipSpace_cons, isSpace, hws, hws'] using hpass
  | @member key ws cs k v hk hws hv ihk ihv =>
    intro fuel rest hfuel hrest
    simp only [List.length_append, List.length_cons] at hfuel
    have hvalue := ihv fuel rest (by omega) hrest
    cases hk with
    | text hws' htext =>
      have hkey := Text.pass_append htext (ws ++ ':' :: (cs ++ rest))
      have hquote : isSpace '"' = false := rfl
      have hcolon : isSpace ':' = false := rfl
      simp only [List.append_assoc, List.cons_append, List.nil_append, passKey, openKey,
        mark_append hws' hquote, bind, Except.bind, hkey, mark_append hws hcolon]
      exact hvalue
  | endItems hws | endMembers hws =>
    intro fuel rest hfuel
    simp [passMore, skipSpace_append, skipSpace_cons, isSpace, hws, Bracket.closing]
  | @nextItem ws cs more v vs hws hv hmore ihv ihmore =>
    intro fuel rest hfuel
    simp only [List.length_append, List.length_cons] at hfuel
    obtain ⟨fuel, rfl⟩ := Nat.exists_eq_add_of_le' (show 0 < fuel by omega)
    have hentry := ihv fuel (more ++ rest) (by omega)
      (delimited_more hmore (Or.inl ⟨_, rfl⟩) rest)
    have hpass := passEntry_append (b := .square) hentry (ihmore fuel rest (by omega))
    simpa [passMore, skipSpace_append, skipSpace_cons, isSpace, hws] using hpass
  | @nextMember ws cs more k v ms hws hm hmore ihm ihmore =>
    intro fuel rest hfuel
    simp only [List.length_append, List.length_cons] at hfuel
    obtain ⟨fuel, rfl⟩ := Nat.exists_eq_add_of_le' (show 0 < fuel by omega)
    have hentry := ihm fuel (more ++ rest) (by omega)
      (delimited_more hmore (Or.inr ⟨_, rfl⟩) rest)
    have hpass := passEntry_append (b := .curly) hentry (ihmore fuel rest (by omega))
    simpa [passMore, skipSpace_append, skipSpace_cons, isSpace, hws] using hpass

/-- A value is passed over. -/
theorem pass_append (h : Spells (.value v) cs) (hrest : Delimited rest) :
    pass (cs ++ rest) = .ok rest :=
  passes h _ rest (by rw [List.length_append]; omega) hrest

end CoreFleet.Json
