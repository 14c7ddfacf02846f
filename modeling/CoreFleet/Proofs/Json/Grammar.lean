import CoreFleet.Json.Reader
import CoreFleet.Proofs.Text.Numeral
import Mathlib.Data.List.Forall2

/-!
# The grammar of documents

A document is a value with white space around it (`Document`). `Spells` derives the texts of
values, without any reader : a value is spelled in many ways, as white space may stand around every
mark, and a character of a text may be written as it is or as an escape.

A `Value` is what a text says. Numbers are kept as they are written, because the spelling decides
what type a number has. Texts are made of Unicode characters. An escape gives a code unit, two of
which may make up one character, and a text in which a surrogate stands alone is no Unicode text
(`Value.text none`) ; it may stand where nobody looks at it.

`IsText`, `IsNatural`, `IsOptional` and `IsSequence` say which values are of a type.
-/

namespace CoreFleet.Json

/-- White space and nothing else. -/
def Spaces (cs : List Char) : Prop := ∀ c ∈ cs, isSpace c = true

/-! ## Numbers -/

namespace Number

/-- One digit or more. -/
structure Digits (ds : List Nat) (cs : List Char) : Prop where
  nonempty : ds ≠ []
  small : ∀ d ∈ ds, d < 10
  text : cs = ds.map Numeral.digitChar

/-- The part before the point and the exponent has no leading zero. -/
structure Whole (ds : List Nat) (cs : List Char) : Prop where
  digits : Digits ds cs
  leading : ds.head? = some 0 → ds = [0]

/-- The part after the point, if there is one. -/
inductive Fraction : List Nat → List Char → Prop
  | absent : Fraction [] []
  | present {ds : List Nat} {cs : List Char} : Digits ds cs → Fraction ds ('.' :: cs)

/-- The sign of an exponent, negative if set. -/
inductive Sign : Bool → List Char → Prop
  | none : Sign false []
  | plus : Sign false ['+']
  | minus : Sign true ['-']

/-- The exponent, if there is one. -/
inductive Exponent : Option (Bool × List Nat) → List Char → Prop
  | absent : Exponent none []
  | given {mark : Char} {sign : List Char} {negative : Bool} {ds : List Nat} {cs : List Char} :
      mark = 'e' ∨ mark = 'E' → Sign negative sign → Digits ds cs →
      Exponent (some (negative, ds)) (mark :: (sign ++ cs))

/-- The text is the numeral. -/
inductive Spells (n : Number) : List Char → Prop
  | intro {whole fraction exponent : List Char} : Whole n.whole whole →
      Fraction n.fraction fraction → Exponent n.exponent exponent →
      Spells n ((if n.negative then ['-'] else []) ++ (whole ++ (fraction ++ exponent)))

/-- A numeral may be digits alone. -/
theorem Whole.spells {ds : List Nat} {cs : List Char} (h : Whole ds cs) :
    Spells ⟨false, ds, [], none⟩ cs := by
  have hspells : Spells ⟨false, ds, [], none⟩ ([] ++ (cs ++ ([] ++ []))) :=
    .intro h .absent .absent
  simpa using hspells

end Number

/-! ## Texts -/

namespace Text

/-- The text, without its quotes, consists of these pieces. -/
inductive Spells : List Piece → List Char → Prop
  | nil : Spells [] []
  | plain {c : Char} {ps : List Piece} {cs : List Char} : firstPlain ≤ c.toNat → c ≠ '"' →
      c ≠ '\\' → Spells ps cs → Spells (.char c :: ps) (c :: cs)
  | escape {letter c : Char} {ps : List Piece} {cs : List Char} : escape? letter = some c →
      Spells ps cs →
      Spells (.char c :: ps) ('\\' :: letter :: cs)
  | unit {a b c d : Char} {n : Nat} {ps : List Piece} {cs : List Char} :
      unit? a b c d = some n → Spells ps cs →
      Spells (.unit n :: ps) ('\\' :: 'u' :: a :: b :: c :: d :: cs)

/-- The characters that pieces make up, unless a surrogate stands alone. -/
def characters? : List Piece → Option (List Char)
  | [] => some []
  | .char c :: ps => (characters? ps).map (c :: ·)
  | .unit n :: .unit m :: ps =>
    if isLeading n then
      if isTrailing m then (characters? ps).map (pair n m :: ·) else none
    else if isTrailing n then none
    else (characters? (.unit m :: ps)).map (Char.ofNat n :: ·)
  | .unit n :: ps =>
    if isLeading n || isTrailing n then none else (characters? ps).map (Char.ofNat n :: ·)

/-- The Unicode text that pieces make up, if they do. -/
def unicode? (ps : List Piece) : Option String := (characters? ps).map String.ofList

end Text

/-! ## Values -/

/-- A value of a document. -/
inductive Value
  | null
  | boolean (b : Bool)
  | number (n : Number)
  /-- A text, or none if a surrogate stands alone in it. -/
  | text (s : Option String)
  | sequence (items : List Value)
  | mapping (members : List (Option String × Value))

/-- The word for a truth value. -/
def booleanWord (b : Bool) : List Char :=
  if b then ['t', 'r', 'u', 'e'] else ['f', 'a', 'l', 's', 'e']

/-- What a stretch of a document consists of. -/
inductive Part
  | value (v : Value)
  /-- A key and a value. -/
  | member (key : Option String) (v : Value)
  /-- The items after one item, and the closing bracket. -/
  | moreItems (vs : List Value)
  /-- The members after one member, and the closing bracket. -/
  | moreMembers (ms : List (Option String × Value))

/-- The text consists of this part, with any white space in front of it. -/
inductive Spells : Part → List Char → Prop
  | null {ws : List Char} : Spaces ws → Spells (.value .null) (ws ++ ['n', 'u', 'l', 'l'])
  | boolean {ws : List Char} {b : Bool} : Spaces ws →
      Spells (.value (.boolean b)) (ws ++ booleanWord b)
  | number {ws cs : List Char} {n : Number} : Spaces ws → n.Spells cs →
      Spells (.value (.number n)) (ws ++ cs)
  | text {ws cs : List Char} {ps : List Text.Piece} : Spaces ws → Text.Spells ps cs →
      Spells (.value (.text (Text.unicode? ps))) (ws ++ '"' :: (cs ++ ['"']))
  | noItems {ws inner : List Char} : Spaces ws → Spaces inner →
      Spells (.value (.sequence [])) (ws ++ '[' :: (inner ++ [']']))
  | items {ws cs rest : List Char} {v : Value} {vs : List Value} : Spaces ws →
      Spells (.value v) cs → Spells (.moreItems vs) rest →
      Spells (.value (.sequence (v :: vs))) (ws ++ '[' :: (cs ++ rest))
  | noMembers {ws inner : List Char} : Spaces ws → Spaces inner →
      Spells (.value (.mapping [])) (ws ++ '{' :: (inner ++ ['}']))
  | members {ws cs rest : List Char} {k : Option String} {v : Value}
      {ms : List (Option String × Value)} : Spaces ws → Spells (.member k v) cs →
      Spells (.moreMembers ms) rest →
      Spells (.value (.mapping ((k, v) :: ms))) (ws ++ '{' :: (cs ++ rest))
  | member {key ws cs : List Char} {k : Option String} {v : Value} :
      Spells (.value (.text k)) key → Spaces ws → Spells (.value v) cs →
      Spells (.member k v) (key ++ (ws ++ ':' :: cs))
  | endItems {ws : List Char} : Spaces ws → Spells (.moreItems []) (ws ++ [']'])
  | nextItem {ws cs rest : List Char} {v : Value} {vs : List Value} : Spaces ws →
      Spells (.value v) cs → Spells (.moreItems vs) rest →
      Spells (.moreItems (v :: vs)) (ws ++ ',' :: (cs ++ rest))
  | endMembers {ws : List Char} : Spaces ws → Spells (.moreMembers []) (ws ++ ['}'])
  | nextMember {ws cs rest : List Char} {k : Option String} {v : Value}
      {ms : List (Option String × Value)} : Spaces ws → Spells (.member k v) cs →
      Spells (.moreMembers ms) rest →
      Spells (.moreMembers ((k, v) :: ms)) (ws ++ ',' :: (cs ++ rest))

/-- The characters stand for themselves in a text. -/
def Plain (cs : List Char) : Prop :=
  ∀ c ∈ cs, Text.firstPlain ≤ c.toNat ∧ c ≠ '"' ∧ c ≠ '\\'

instance (cs : List Char) : Decidable (Plain cs) := List.decidableBAll _ cs

theorem Plain.spells {cs : List Char} (h : Plain cs) : Text.Spells (cs.map .char) cs := by
  induction cs with
  | nil => exact .nil
  | cons c cs ih =>
    obtain ⟨⟨hc, hquote, hescape⟩, hcs⟩ := List.forall_mem_cons.1 h
    exact .plain hc hquote hescape (ih hcs)

theorem Text.characters?_map_char (cs : List Char) : characters? (cs.map .char) = some cs := by
  induction cs with
  | nil => rfl
  | cons c cs ih => simp [characters?, ih]

/-- A text of such characters stands between quotes as it is. -/
theorem Plain.spells_text {s : String} (h : Plain s.toList) :
    Spells (.value (.text (some s))) ('"' :: (s.toList ++ ['"'])) := by
  have hnil : Spaces [] := nofun
  have hspells := Spells.text hnil h.spells
  rwa [Text.unicode?, Text.characters?_map_char, Option.map_some, String.ofList_toList] at hspells

/-- A member whose key consists of such characters. -/
theorem Plain.spells_member {key : String} (h : Plain key.toList) {v : Value} {cs : List Char}
    (hv : Spells (.value v) cs) :
    Spells (.member (some key) v) ('"' :: (key.toList ++ ['"']) ++ ':' :: cs) :=
  have hnil : Spaces [] := nofun
  .member h.spells_text hnil hv

/-- The text is a document of the value. -/
def Document (v : Value) (text : List Char) : Prop :=
  ∃ cs ws, text = cs ++ ws ∧ Spells (.value v) cs ∧ Spaces ws

/-! ## Types of values -/

/-- The value is this text. -/
def IsText (v : Value) (s : String) : Prop := v = .text (some s)

/-- The value is a natural number below a bound. A number with a minus sign, a fraction or an
exponent is none, whatever it amounts to. -/
def IsNatural (bound : Nat) (v : Value) (n : Nat) : Prop :=
  ∃ ds, v = .number ⟨false, ds, [], none⟩ ∧ n = Nat.ofDigits 10 ds.reverse ∧ n < bound

section Types

variable {α : Type} (Means : Value → α → Prop)

/-- The value is null, or it has a meaning. -/
def IsOptional (v : Value) : Option α → Prop
  | none => v = .null
  | some a => Means v a

/-- The value is a sequence of values that have these meanings. -/
def IsSequence (v : Value) (as : List α) : Prop :=
  ∃ vs, v = .sequence vs ∧ List.Forall₂ Means vs as

end Types

@[simp]
theorem not_isText_null {s : String} : ¬ IsText .null s := nofun

@[simp]
theorem not_isNatural_null {bound n : Nat} : ¬ IsNatural bound .null n := nofun

@[simp]
theorem not_isSequence_null {α : Type} {Means : Value → α → Prop} {as : List α} :
    ¬ IsSequence Means .null as := nofun

@[simp]
theorem isOptional_null_iff {α : Type} {Means : Value → α → Prop} (h : ∀ a, ¬ Means .null a)
    {o : Option α} : IsOptional Means .null o ↔ o = none := by
  cases o <;> simp [IsOptional, h]

end CoreFleet.Json
