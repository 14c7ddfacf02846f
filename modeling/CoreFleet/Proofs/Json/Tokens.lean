import CoreFleet.Proofs.Json.Grammar

/-!
# Reading numbers, texts and scalars

The readers of tokens take off a text what the grammar derives, and give the rest
(`Number.read_append`, `Text.read_append`, `scalar_append`). Texts and brackets say themselves
where they end. A number does not, so that its text must be `Delimited` from what follows.
-/

namespace CoreFleet.Json

/-! ## White space and words -/

/-- No number goes on here. -/
def Delimited (rest : List Char) : Prop :=
  ∀ c ∈ rest.head?, Numeral.digit? c = none ∧ c ≠ '.' ∧ c ≠ 'e' ∧ c ≠ 'E'

section Words

variable {ws cs rest : List Char} {c : Char}

theorem isSpace_iff : isSpace c = true ↔ c ∈ [' ', '\n', '\t', '\r'] := by
  simp [isSpace, or_assoc]

theorem skipSpace_append (h : Spaces ws) (cs : List Char) :
    skipSpace (ws ++ cs) = skipSpace cs :=
  List.dropWhile_append_of_pos h

theorem skipSpace_cons (h : isSpace c = false) (cs : List Char) :
    skipSpace (c :: cs) = c :: cs := by
  simp [skipSpace, h]

theorem skipSpace_eq_nil (h : Spaces ws) : skipSpace ws = [] := by
  rw [← List.append_nil ws, skipSpace_append h]
  rfl

theorem word_append (w rest : List Char) : word w (w ++ rest) = .ok rest := by
  induction w with
  | nil => rfl
  | cons c w ih => simp [word, ih]

/-- A mark is found after white space. -/
theorem mark_append (h : Spaces ws) (hc : isSpace c = false) (rest : List Char) :
    mark c (ws ++ c :: rest) = .ok rest := by
  rw [mark, skipSpace_append h, skipSpace_cons hc]
  exact word_append [c] rest

theorem delimited_cons (hc : Numeral.digit? c = none ∧ c ≠ '.' ∧ c ≠ 'e' ∧ c ≠ 'E') :
    Delimited (c :: rest) := by
  rintro _ ⟨⟩
  exact hc

theorem delimited_spaces (h : Spaces ws) (hrest : Delimited rest) : Delimited (ws ++ rest) := by
  cases ws with
  | nil => exact hrest
  | cons c ws =>
    have hwhite : ∀ c ∈ [' ', '\n', '\t', '\r'],
        Numeral.digit? c = none ∧ c ≠ '.' ∧ c ≠ 'e' ∧ c ≠ 'E' := by simp [Numeral.digit?]
    exact delimited_cons (hwhite c (isSpace_iff.1 (h c List.mem_cons_self)))

end Words

/-! ## Numbers -/

namespace Number

variable {ds : List Nat} {cs rest : List Char} {exponent : Option (Bool × List Nat)}

theorem digits_append (hds : ∀ d ∈ ds, d < 10)
    (hrest : ∀ c ∈ rest.head?, Numeral.digit? c = none) :
    digits (ds.map Numeral.digitChar ++ rest) = (ds, rest) := by
  induction ds with
  | nil =>
    cases rest with
    | nil => rfl
    | cons c rest => simp [digits, hrest c rfl]
  | cons d ds ih =>
    obtain ⟨hd, hds⟩ := List.forall_mem_cons.1 hds
    simp [digits, Numeral.digit?_digitChar hd, ih hds]

theorem Digits.read (h : Digits ds cs) (hrest : ∀ c ∈ rest.head?, Numeral.digit? c = none) :
    someDigits (cs ++ rest) = .ok (ds, rest) := by
  obtain ⟨hne, hsmall, rfl⟩ := h
  obtain ⟨d, ds, rfl⟩ := List.exists_cons_of_ne_nil hne
  rw [someDigits, digits_append hsmall hrest]

theorem Whole.read (h : Whole ds cs) (hrest : ∀ c ∈ rest.head?, Numeral.digit? c = none) :
    wholePart (cs ++ rest) = .ok (ds, rest) := by
  rw [wholePart, h.digits.read hrest]
  split
  · next heq =>
    obtain ⟨rfl, rfl⟩ := Prod.mk.inj (Except.ok.inj heq)
    exact nomatch h.leading rfl
  · rfl

theorem Fraction.read (h : Fraction ds cs)
    (hrest : ∀ c ∈ rest.head?, Numeral.digit? c = none ∧ c ≠ '.') :
    fractionPart (cs ++ rest) = .ok (ds, rest) := by
  cases h with
  | present h => exact h.read fun c hc => (hrest c hc).1
  | absent =>
    rw [List.nil_append]
    unfold fractionPart
    split
    · exact absurd rfl (hrest '.' rfl).2
    · rfl

/-- No digit is a sign. -/
theorem Digits.not_sign (h : Digits ds cs) : cs.head? ≠ some '+' ∧ cs.head? ≠ some '-' := by
  obtain ⟨hne, hsmall, rfl⟩ := h
  obtain ⟨d, ds, rfl⟩ := List.exists_cons_of_ne_nil hne
  have hd : Numeral.digit? (Numeral.digitChar d) = some d :=
    Numeral.digit?_digitChar (hsmall d List.mem_cons_self)
  have hsign {c : Char} (hc : Numeral.digit? c = none) :
      ((d :: ds).map Numeral.digitChar).head? ≠ some c := by
    rintro ⟨⟩
    exact nomatch hd.symm.trans hc
  exact ⟨hsign rfl, hsign rfl⟩

theorem Sign.read {negative : Bool} {sign : List Char} (h : Sign negative sign)
    (hcs : cs.head? ≠ some '+' ∧ cs.head? ≠ some '-') :
    exponentSign (sign ++ cs) = (negative, cs) := by
  cases h with
  | plus | minus => rfl
  | none =>
    rw [List.nil_append]
    unfold exponentSign
    split
    · exact absurd rfl hcs.1
    · exact absurd rfl hcs.2
    · rfl

theorem Exponent.read (h : Exponent exponent cs) (hrest : Delimited rest) :
    exponentPart (cs ++ rest) = .ok (exponent, rest) := by
  cases h with
  | absent =>
    cases rest with
    | nil => rfl
    | cons c rest =>
      obtain ⟨-, -, he⟩ := hrest c rfl
      simp [exponentPart, he]
  | given hmark hsign hdigits =>
    have hhead := hdigits.not_sign
    obtain ⟨c, cs, rfl⟩ := List.exists_cons_of_ne_nil
      (fun hnil => hdigits.nonempty (List.map_eq_nil_iff.1 (hdigits.text.symm.trans hnil)))
    have hread : exponentSign (_ ++ ((c :: cs) ++ rest)) = _ := hsign.read hhead
    simp only [List.cons_append, List.append_assoc, exponentPart, hmark, if_true]
    rw [List.cons_append] at hread
    rw [hread, ← List.cons_append, hdigits.read fun c hc => (hrest c hc).1]

theorem Exponent.delimits (h : Exponent exponent cs) (hrest : Delimited rest) :
    ∀ c ∈ (cs ++ rest).head?, Numeral.digit? c = none ∧ c ≠ '.' := by
  cases h with
  | absent => exact fun c hc => ⟨(hrest c hc).1, (hrest c hc).2.1⟩
  | given hmark =>
    rintro _ ⟨⟩
    rcases hmark with rfl | rfl <;> decide

theorem Fraction.delimits (h : Fraction ds cs)
    (hrest : ∀ c ∈ rest.head?, Numeral.digit? c = none ∧ c ≠ '.') :
    ∀ c ∈ (cs ++ rest).head?, Numeral.digit? c = none := by
  cases h with
  | absent => exact fun c hc => (hrest c hc).1
  | present =>
    rintro _ ⟨⟩
    rfl

/-- A numeral is read off a text from which it is delimited. -/
theorem read_append {n : Number} (h : n.Spells cs) (hrest : Delimited rest) :
    read (cs ++ rest) = .ok (n, rest) := by
  obtain ⟨negative, whole, fraction, exponent⟩ := n
  obtain ⟨hwhole, hfraction, hexponent⟩ := h
  next w f e =>
  have hafter := hexponent.delimits hrest
  have hw := hwhole.read (hfraction.delimits hafter)
  have hsign : sign ((if negative then ['-'] else []) ++ (w ++ (f ++ (e ++ rest)))) =
      (negative, w ++ (f ++ (e ++ rest))) := by
    cases negative with
    | true => rfl
    | false =>
      have hhead := hwhole.digits.not_sign.2
      cases w with
      | nil => exact absurd (List.map_eq_nil_iff.1 hwhole.digits.text.symm) hwhole.digits.nonempty
      | cons c w =>
        unfold sign
        simp only [Bool.false_eq_true, if_false, List.nil_append, List.cons_append]
        split
        · next heq =>
          obtain ⟨rfl, -⟩ := List.cons.inj heq
          exact absurd rfl hhead
        · rfl
  simp only [List.append_assoc]
  simp only [read, hsign, hw, hfraction.read hafter, hexponent.read hrest, bind, Except.bind, pure,
    Except.pure]

end Number

/-! ## Texts -/

namespace Text

variable {ps : List Piece} {cs : List Char}

theorem pieces_append (h : Spells ps cs) (rest : List Char) :
    pieces (cs ++ '"' :: rest) = (ps, .ok rest) := by
  induction h with
  | nil => simp [pieces]
  | @plain c ps cs hc hquote hescape _ ih =>
    rw [List.cons_append, pieces]
    · simp [Nat.not_lt.2 hc, ih]
    all_goals simp_all
  | @escape letter c ps cs hletter _ ih =>
    have hu : letter ≠ 'u' := by
      rintro rfl
      cases hletter
    rw [List.cons_append, List.cons_append, pieces]
    · simp [hletter, ih]
    all_goals simp_all
  | unit hn _ ih => simp [pieces, hn, ih]

/-- No unit is both the first and the second one of a pair. -/
theorem isTrailing_of_isLeading {n : Nat} (h : isLeading n = true) : isTrailing n = false := by
  simp only [isLeading, isTrailing, Bool.and_eq_true, decide_eq_true_eq, Bool.and_eq_false_iff,
    decide_eq_false_iff_not] at h ⊢
  omega

/-- Pieces are put together to the characters that they make up. -/
theorem join_ok (rest : List Char) (ps : List Piece) :
    join (.ok rest) ps = match characters? ps with
      | some s => .ok (s, rest)
      | none => .error .malformed := by
  fun_induction characters? ps with
  | case1 => rfl
  | case2 c ps ih =>
    rw [join, ih]
    cases characters? ps <;> rfl
  | case3 n m ps hn hm ih =>
    simp only [join, isTrailing_of_isLeading hn, hn, hm, ih]
    cases characters? ps <;> rfl
  | case4 n m ps hn hm => simp [join, isTrailing_of_isLeading hn, hn, hm]
  | case5 n m ps hn hm => simp [join, hm]
  | case6 n m ps hn hm ih =>
    rw [join.eq_def]
    simp only [hn, hm, ih, Bool.false_eq_true, if_false]
    cases characters? (.unit m :: ps) <;> rfl
  | case7 n ps hps hn =>
    rw [join.eq_def]
    cases ht : isTrailing n with
    | true => simp [ht]
    | false =>
      have hl : isLeading n = true := by simpa [ht] using hn
      rcases ps with _ | ⟨c | m, ps⟩
      · simp [ht, hl]
      · simp [ht, hl]
      · exact absurd rfl (hps m ps)
  | case8 n ps hps hn ih =>
    obtain ⟨hl, ht⟩ : isLeading n = false ∧ isTrailing n = false := by simpa using hn
    rw [join.eq_def]
    simp only [hl, ht, ih, Bool.false_eq_true, if_false]
    cases characters? ps <;> rfl

/-- A text is read off up to its closing quote, if it is a Unicode text. -/
theorem read_append (h : Spells ps cs) (rest : List Char) :
    read (cs ++ '"' :: rest) = match characters? ps with
      | some s => .ok (s, rest)
      | none => .error .malformed := by
  rw [read, pieces_append h, join_ok]

/-- Any text is passed over up to its closing quote. -/
theorem pass_append (h : Spells ps cs) (rest : List Char) :
    pass (cs ++ '"' :: rest) = .ok rest := by
  rw [pass, pieces_append h]

end Text

/-! ## Scalars -/

section Scalars

variable {v : Value} {n : Number} {cs rest : List Char}

/-- What a look at a value gives, with what follows the value. Of a sequence or a mapping only the
opening bracket is taken. -/
def Value.Seen (v : Value) (rest : List Char) (r : Except Fault (Found × List Char)) : Prop :=
  match v with
  | null => r = .ok (.null, rest)
  | boolean b => r = .ok (.boolean b, rest)
  | number n => r = n.found.map fun found => (found, rest)
  | text (some s) => r = .ok (.text s, rest)
  | text none => r = .error .malformed
  | sequence _ => ∃ rest', r = .ok (.sequence, rest')
  | mapping _ => ∃ rest', r = .ok (.mapping, rest')

/-- A number begins with a character of its own. -/
theorem Number.Spells.starts (h : Number.Spells n cs) : ∃ c cs', cs = c :: cs' ∧
    startsNumber c = true := by
  obtain ⟨hwhole, -, -⟩ := h
  next w f e =>
  obtain ⟨d, ds, hds⟩ := List.exists_cons_of_ne_nil hwhole.digits.nonempty
  cases n.negative with
  | true => exact ⟨_, _, rfl, rfl⟩
  | false =>
    have hd : d < 10 := hwhole.digits.small d (hds ▸ List.mem_cons_self)
    refine ⟨Numeral.digitChar d, ds.map Numeral.digitChar ++ (f ++ e), ?_, ?_⟩
    · rw [hwhole.digits.text, hds]
      rfl
    · simp [startsNumber, Numeral.digit?_digitChar hd]

/-- Neither white space nor another value begins with such a character. -/
theorem starts_alone {c : Char} (h : startsNumber c = true) :
    isSpace c = false ∧ c ∉ ['n', 't', 'f', '"', '[', '{', ']', '}'] := by
  have hother : ∀ c' ∈ ['n', 't', 'f', '"', '[', '{', ']', '}'], startsNumber c' = false := by
    simp [startsNumber, Numeral.digit?]
  have hwhite : ∀ c' ∈ [' ', '\n', '\t', '\r'], startsNumber c' = false := by
    simp [startsNumber, Numeral.digit?]
  refine ⟨Bool.eq_false_iff.2 fun hc => ?_, fun hc => ?_⟩
  · exact Bool.noConfusion (h.symm.trans (hwhite c (isSpace_iff.1 hc)))
  · exact Bool.noConfusion (h.symm.trans (hother c hc))

/-- The value begins with this character. -/
def Value.Begins (v : Value) (c : Char) : Prop :=
  match v with
  | null => c = 'n'
  | boolean b => c = if b then 't' else 'f'
  | number _ => startsNumber c = true
  | text _ => c = '"'
  | sequence _ => c = '['
  | mapping _ => c = '{'

/-- Neither white space nor the end of a bracket begins a value. -/
theorem Value.Begins.alone {c : Char} (h : v.Begins c) : isSpace c = false ∧ c ≠ ']' ∧ c ≠ '}' := by
  cases v with
  | number n =>
    obtain ⟨hspace, hother⟩ := starts_alone h
    simp only [List.mem_cons, List.not_mem_nil, or_false, not_or] at hother
    exact ⟨hspace, hother.2.2.2.2.2.2⟩
  | boolean b =>
    cases b with
    | true => subst h; decide
    | false => subst h; decide
  | null | text | sequence | mapping =>
    obtain rfl := h
    decide

/-- Null and the brackets have characters of their own. -/
theorem Value.Begins.distinct {c : Char} (h : v.Begins c) : (c = 'n' → v = .null) ∧
    (c = '[' → ∃ vs, v = .sequence vs) ∧ (c = '{' → ∃ ms, v = .mapping ms) := by
  refine ⟨?_, ?_, ?_⟩
  all_goals
    rintro rfl
    cases v with
    | number n => exact absurd h (by simp [Begins, startsNumber, Numeral.digit?])
    | boolean b => cases b <;> simp [Begins] at h
    | null | text | sequence | mapping => simp_all [Begins]

/-- A value stands after white space. -/
theorem Spells.trim_value (h : Spells (.value v) cs) : ∃ ws c t, cs = ws ++ c :: t ∧ Spaces ws ∧
    v.Begins c ∧ Spells (.value v) (c :: t) := by
  have hnil : Spaces [] := nofun
  cases h with
  | null hws => exact ⟨_, 'n', _, rfl, hws, rfl, .null hnil⟩
  | @boolean ws b hws =>
    cases b with
    | true => exact ⟨_, 't', _, rfl, hws, rfl, .boolean hnil⟩
    | false => exact ⟨_, 'f', _, rfl, hws, rfl, .boolean hnil⟩
  | number hws hn =>
    obtain ⟨c, cs, rfl, hc⟩ := hn.starts
    exact ⟨_, c, cs, rfl, hws, hc, .number hnil hn⟩
  | text hws htext => exact ⟨_, '"', _, rfl, hws, rfl, .text hnil htext⟩
  | noItems hws hinner => exact ⟨_, '[', _, rfl, hws, rfl, .noItems hnil hinner⟩
  | items hws hv hmore => exact ⟨_, '[', _, rfl, hws, rfl, .items hnil hv hmore⟩
  | noMembers hws hinner => exact ⟨_, '{', _, rfl, hws, rfl, .noMembers hnil hinner⟩
  | members hws hm hmore => exact ⟨_, '{', _, rfl, hws, rfl, .members hnil hm hmore⟩

/-- A member begins, after white space, with the quote of its key. -/
theorem Spells.trim_member {k : Option String} (h : Spells (.member k v) cs) :
    ∃ ws t, cs = ws ++ '"' :: t ∧ Spaces ws ∧ Spells (.member k v) ('"' :: t) := by
  cases h with
  | member hkey hws hv =>
    cases hkey with
    | @text ws' cs' ps hws' htext =>
      have hnil : Spaces [] := nofun
      exact ⟨ws', _, List.append_assoc .., hws', .member (.text hnil htext) hws hv⟩

theorem scalar_append (h : Spells (.value v) cs) (hrest : Delimited rest) :
    v.Seen rest (scalar (cs ++ rest)) := by
  cases h with
  | null hws =>
    simp only [List.append_assoc, scalar, skipSpace_append hws]
    exact congrArg (Except.map _) (word_append ['u', 'l', 'l'] rest)
  | @boolean ws b hws =>
    simp only [List.append_assoc, scalar, skipSpace_append hws]
    cases b with
    | true => exact congrArg (Except.map _) (word_append ['r', 'u', 'e'] rest)
    | false => exact congrArg (Except.map _) (word_append ['a', 'l', 's', 'e'] rest)
  | number hws hn =>
    have hread := Number.read_append hn hrest
    obtain ⟨c, cs, rfl, hc⟩ := hn.starts
    obtain ⟨hspace, hother⟩ := starts_alone hc
    simp only [List.mem_cons, List.not_mem_nil, or_false, not_or] at hother
    simp only [Value.Seen, List.append_assoc, scalar, skipSpace_append hws, List.cons_append,
      skipSpace_cons hspace, hother, hc, if_false, if_true]
    rw [← List.cons_append, hread]
  | @text ws cs ps hws htext =>
    have hread := Text.read_append htext rest
    have hscalar : scalar (ws ++ '"' :: (cs ++ ['"']) ++ rest) =
        (Text.read (cs ++ '"' :: rest)).map fun p => (.text (String.ofList p.1), p.2) := by
      simp [scalar, skipSpace_append hws, skipSpace_cons, isSpace]
    rw [hread] at hscalar
    rw [hscalar]
    cases hchars : Text.characters? ps with
    | none => simp [Text.unicode?, hchars, Except.map, Value.Seen]
    | some s => simp [Text.unicode?, hchars, Except.map, Value.Seen]
  | noItems hws | items hws | noMembers hws | members hws =>
    simp [Value.Seen, scalar, skipSpace_append hws, skipSpace_cons, isSpace]

end Scalars

end CoreFleet.Json
