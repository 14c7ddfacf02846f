import CoreFleet.Launch.Options
import CoreFleet.Proofs.Text.Numeral
import Mathlib.Data.List.Forall2

/-!
# The grammar of launch options

An argument vector is a program name, then `Item`s, then nothing or `--` with arguments that
belong to somebody else (`Layout`). An item is a setting with its value or a long option for the
packet engine. The value of a setting is the argument after it, whatever it looks like, so that
an argument vector has one layout at most (`Layout.unique`).

`Meaning` says what the items stand for, as a whole and not in the order of reading : there is at
most one core set, and of the numerals for the memory channels and for the main core the last one
counts. `parse_eq_ok_iff` says that the reader accepts exactly the argument vectors of this
grammar, with this meaning.

The reader goes from the left, and what it has read so far decides what it accepts.
`Reading.Extends` is the meaning of items on top of a reading, and
`Reading.scan_words_eq_ok_iff` the induction.
-/

namespace CoreFleet.Launch

/-! ## Items -/

/-- A long option that is kept for the packet engine. -/
def IsLong (raw : String) : Prop :=
  ['-', '-'] <+: raw.toList ∧ raw ≠ "--" ∧ raw ≠ Setting.mainLcore.flag

instance (raw : String) : Decidable (IsLong raw) := inferInstanceAs (Decidable (_ ∧ _ ∧ _))

/-- What may stand between the program name and the end of the options. -/
inductive Item
  | setting (s : Setting) (value : String)
  | long (raw : String) (isLong : IsLong raw)

namespace Item

/-- The arguments that make up an item. -/
def words : Item → List String
  | setting s value => [s.flag, value]
  | long raw _ => [raw]

/-- The value that the item gives to a setting. -/
def value? (s : Setting) : Item → Option String
  | setting own value => if own = s then some value else none
  | long .. => none

/-- What the text of a core option denotes, if the item is one. -/
def cores? : Item → Option (Option (List Nat))
  | setting .coreMask text => some (CoreSet.ofMask? text.toList)
  | setting .coreList text => some (CoreSet.ofList? text.toList)
  | _ => none

/-- The long option, if the item is one. -/
def long? : Item → Option String
  | long raw _ => some raw
  | _ => none

end Item

section Word

variable {arg raw : String} {s : Setting}

theorem Word.ofString_flag (s : Setting) : Word.ofString s.flag = .setting s := by
  cases s <;> rfl

theorem Word.ofString_of_isLong (h : IsLong raw) : Word.ofString raw = .long := by
  obtain ⟨⟨rest, hprefix⟩, hend, hmain⟩ := h
  have hflag (s : Setting) (hs : (['-', '-'] ++ rest : List Char) ≠ s.flag.toList) :
      raw ≠ s.flag := fun h => hs (h ▸ hprefix)
  have hstrip : Text.strip? ['-', '-'] raw.toList = some rest :=
    Text.strip?_eq_some_iff.2 hprefix.symm
  simp [ofString, hend, hmain, hstrip, hflag .coreMask (by simp [Setting.flag]),
    hflag .coreList (by simp [Setting.flag]), hflag .memoryChannels (by simp [Setting.flag])]

/-- What an argument in option position stands for. -/
theorem Word.ofString_cases (arg : String) :
    arg = "--" ∧ Word.ofString arg = .terminator ∨
    (∃ s, arg = s.flag ∧ Word.ofString arg = .setting s) ∨
    IsLong arg ∧ Word.ofString arg = .long ∨ Word.ofString arg = .unknown := by
  unfold Word.ofString
  split
  case isTrue h => exact Or.inl ⟨h, rfl⟩
  case isFalse hend =>
    split
    case isTrue h => exact Or.inr (Or.inl ⟨_, h, rfl⟩)
    split
    case isTrue h => exact Or.inr (Or.inl ⟨_, h, rfl⟩)
    split
    case isTrue h => exact Or.inr (Or.inl ⟨_, h, rfl⟩)
    split
    case isTrue h => exact Or.inr (Or.inl ⟨_, h, rfl⟩)
    case isFalse hmain =>
      split
      case isTrue h =>
        obtain ⟨rest, hrest⟩ := Option.isSome_iff_exists.1 h
        exact Or.inr (Or.inr (Or.inl
          ⟨⟨⟨rest, (Text.strip?_eq_some_iff.1 hrest).symm⟩, hend, hmain⟩, rfl⟩))
      case isFalse => exact Or.inr (Or.inr (Or.inr rfl))

theorem Word.eq_of_terminator (h : Word.ofString arg = .terminator) : arg = "--" := by
  rcases Word.ofString_cases arg with ⟨harg, -⟩ | ⟨_, -, h'⟩ | ⟨-, h'⟩ | h'
  · exact harg
  all_goals exact nomatch h.symm.trans h'

theorem Word.eq_flag_of_setting (h : Word.ofString arg = .setting s) : arg = s.flag := by
  rcases Word.ofString_cases arg with ⟨-, h'⟩ | ⟨s', harg, h'⟩ | ⟨-, h'⟩ | h'
  case inr.inl =>
    obtain rfl := Word.setting.inj (h.symm.trans h')
    exact harg
  all_goals exact nomatch h.symm.trans h'

theorem Word.isLong_of_long (h : Word.ofString arg = .long) : IsLong arg := by
  rcases Word.ofString_cases arg with ⟨-, h'⟩ | ⟨_, -, h'⟩ | ⟨hlong, -⟩ | h'
  case inr.inr.inl => exact hlong
  all_goals exact nomatch h.symm.trans h'

end Word

/-! ## Layout -/

/-- The arguments that make up several items. -/
def words (items : List Item) : List String := items.flatMap Item.words

/-- Nothing, or the end of the options and whatever follows it. -/
def Terminated (tail : List String) : Prop := tail = [] ∨ tail.head? = some "--"

/-- The argument vector consists of a program name, items, and what follows the options. -/
structure Layout (args : List String) (name : String) (items : List Item) (tail : List String) :
    Prop where
  args : args = name :: (words items ++ tail)
  terminated : Terminated tail

theorem words_cons (item : Item) (items : List Item) (tail : List String) :
    words (item :: items) ++ tail = item.words ++ (words items ++ tail) := by
  simp [words]

/-- An item does not begin with the end of the options. -/
theorem Terminated.ne_words {tail : List String} (h : Terminated tail) (item : Item)
    (rest : List String) : tail ≠ item.words ++ rest := by
  rintro rfl
  rcases h with h | h
  · cases item <;> cases h
  · cases item with
    | setting s value =>
      have hflag : s.flag = "--" := Option.some.inj h
      cases s <;> exact absurd hflag (by decide)
    | long raw isLong => exact isLong.2.1 (Option.some.inj h)

/-- The first argument of an item tells which one it is. -/
theorem Item.words_append_inj {item item' : Item} {rest rest' : List String}
    (h : item.words ++ rest = item'.words ++ rest') : item = item' ∧ rest = rest' := by
  have hmixed {s : Setting} {raw : String} (isLong : IsLong raw) : s.flag ≠ raw := by
    rintro rfl
    exact nomatch (Word.ofString_flag s).symm.trans (Word.ofString_of_isLong isLong)
  cases item with
  | setting s value =>
    cases item' with
    | setting s' value' =>
      obtain ⟨hflag, rfl, rfl⟩ : s.flag = s'.flag ∧ value = value' ∧ rest = rest' := by
        simpa [words] using h
      have hword := Word.ofString_flag s
      rw [hflag, Word.ofString_flag s'] at hword
      obtain rfl : s' = s := Word.setting.inj hword
      exact ⟨rfl, rfl⟩
    | long raw' isLong' => exact absurd (List.cons.inj h).1 (hmixed isLong')
  | long raw isLong =>
    cases item' with
    | setting s' value' => exact absurd (List.cons.inj h).1.symm (hmixed isLong)
    | long raw' isLong' =>
      obtain ⟨rfl, rfl⟩ := List.cons.inj h
      exact ⟨rfl, rfl⟩

theorem eq_of_words_append_eq {items items' : List Item} {tail tail' : List String}
    (ht : Terminated tail) (ht' : Terminated tail')
    (h : words items ++ tail = words items' ++ tail') : items = items' ∧ tail = tail' := by
  induction items generalizing items' with
  | nil =>
    cases items' with
    | nil => exact ⟨rfl, h⟩
    | cons item' items' =>
      rw [words_cons] at h
      exact absurd h (ht.ne_words item' _)
  | cons item items ih =>
    cases items' with
    | nil =>
      rw [words_cons] at h
      exact absurd h.symm (ht'.ne_words item _)
    | cons item' items' =>
      rw [words_cons, words_cons] at h
      obtain ⟨rfl, hrest⟩ := Item.words_append_inj h
      obtain ⟨rfl, rfl⟩ := ih hrest
      exact ⟨rfl, rfl⟩

/-- An argument vector has one layout at most. -/
theorem Layout.unique {args : List String} {name name' : String} {items items' : List Item}
    {tail tail' : List String} (h : Layout args name items tail)
    (h' : Layout args name' items' tail') : name = name' ∧ items = items' ∧ tail = tail' := by
  obtain ⟨rfl, hrest⟩ := List.cons.inj (h.args.symm.trans h'.args)
  exact ⟨rfl, eq_of_words_append_eq h.terminated h'.terminated hrest⟩

/-! ## Meaning -/

/-- The values that the items give to a setting, in order. -/
def values (s : Setting) (items : List Item) : List String := items.filterMap (Item.value? s)

/-- All the texts are numerals of 32-bit words, and `new` is the last one of these, or `old` if
there is no text. -/
def Latest (old : Option Nat) (texts : List String) (new : Option Nat) : Prop :=
  ∃ ns, List.Forall₂ (fun text n => Numeral.Denotes text.toList n ∧ n < Numeral.wordBound)
    texts ns ∧ new = ns.getLast?.or old

/-- What the items mean on a machine with the given processors. -/
structure Meaning (available : List Nat) (items : List Item) (o : Options) : Prop where
  /-- There is no core option, or one that denotes the core set. -/
  cores : items.filterMap Item.cores? = [] ∧ o.cores = available ∨
    items.filterMap Item.cores? = [some o.cores]
  nonempty : o.cores ≠ []
  /-- The main core is the last one that is given, or else the lowest one. -/
  mainLcore : ∃ main, Latest none (values .mainLcore items) main ∧
    main.or o.cores.min? = some o.mainLcore
  main_mem : o.mainLcore ∈ o.cores
  memoryChannels : Latest none (values .memoryChannels items) o.memoryChannels
  passthrough : o.passthrough = items.filterMap Item.long?

/-- At most one core set is given, counting `old`, and each text that gives one denotes it. Then
`new` is this core set. -/
def Single (old : Option (List Nat)) (cores : List (Option (List Nat)))
    (new : Option (List Nat)) : Prop :=
  old.toList.map some ++ cores = new.toList.map some

theorem latest_nil_iff {old new : Option Nat} : Latest old [] new ↔ new = old := by
  simp [Latest]

theorem latest_cons_iff {old new : Option Nat} {text : String} {texts : List String} :
    Latest old (text :: texts) new ↔
      ∃ n, Numeral.word? text.toList = some n ∧ Latest (some n) texts new := by
  have hlast (n : Nat) (ns : List Nat) :
      (n :: ns).getLast?.or old = ns.getLast?.or (some n) := by
    rw [List.getLast?_cons]
    cases ns.getLast? <;> rfl
  constructor
  · rintro ⟨_ | ⟨n, ns⟩, hall, rfl⟩
    · cases hall
    · obtain ⟨hn, hns⟩ := List.forall₂_cons.1 hall
      exact ⟨n, Numeral.word?_eq_some_iff.2 hn, ns, hns, hlast n ns⟩
  · rintro ⟨n, hn, ns, hns, rfl⟩
    exact ⟨n :: ns, .cons (Numeral.word?_eq_some_iff.1 hn) hns, (hlast n ns).symm⟩

theorem latest_singleton_iff {old new : Option Nat} {text : String} :
    Latest old [text] new ↔ ∃ n, Numeral.word? text.toList = some n ∧ new = some n := by
  simp only [latest_cons_iff, latest_nil_iff]

theorem latest_append_iff {old new : Option Nat} {texts texts' : List String} :
    Latest old (texts ++ texts') new ↔
      ∃ mid, Latest old texts mid ∧ Latest mid texts' new := by
  induction texts generalizing old with
  | nil => simp [latest_nil_iff]
  | cons text texts ih =>
    simp only [List.cons_append, latest_cons_iff, ih]
    constructor
    · rintro ⟨n, hn, mid, hmid, hnew⟩
      exact ⟨mid, ⟨n, hn, hmid⟩, hnew⟩
    · rintro ⟨mid, ⟨n, hn, hmid⟩, hnew⟩
      exact ⟨n, hn, mid, hmid, hnew⟩

theorem single_nil_iff {old new : Option (List Nat)} : Single old [] new ↔ new = old := by
  cases old <;> cases new <;> simp [Single, eq_comm]

theorem single_singleton_iff {old new cores : Option (List Nat)} :
    Single old [cores] new ↔ old = none ∧ ∃ ids, cores = some ids ∧ new = some ids := by
  cases old <;> cases new <;> simp [Single]

theorem single_append_iff {old new : Option (List Nat)} {cores cores' : List (Option (List Nat))} :
    Single old (cores ++ cores') new ↔
      ∃ mid, Single old cores mid ∧ Single mid cores' new := by
  simp only [Single]
  constructor
  · intro h
    rw [← List.append_assoc] at h
    -- a beginning of a list with at most one element has at most one element itself
    cases new with
    | none => exact ⟨none, by simp_all, by simp_all⟩
    | some ids =>
      rcases List.append_eq_singleton_iff.1 h with ⟨hnil, hone⟩ | ⟨hone, hnil⟩
      · exact ⟨none, hnil, hone⟩
      · exact ⟨some ids, hone, by simp [hnil]⟩
  · rintro ⟨mid, hmid, hnew⟩
    rw [← List.append_assoc, hmid, hnew]

/-! ## Reading items -/

namespace Reading

/-- The reading `r'` is what the items, and the end of the options after them, make of `r`. -/
@[mk_iff]
structure Extends (r : Reading) (items : List Item) (tail : List String) (r' : Reading) :
    Prop where
  cores : Single r.cores (items.filterMap Item.cores?) r'.cores
  mainLcore : Latest r.mainLcore (values .mainLcore items) r'.mainLcore
  memoryChannels : Latest r.memoryChannels (values .memoryChannels items) r'.memoryChannels
  passthrough : r'.passthrough = r.passthrough ++ items.filterMap Item.long?
  parsedArgs : r'.parsedArgs = r.parsedArgs + (words items).length + (tail.take 1).length

/-- Reads an item. -/
def take (r : Reading) : Item → Except Refusal Reading
  | .setting s value => (r.enter s value).map (·.advance 2)
  | .long raw _ => .ok ({ r with passthrough := r.passthrough ++ [raw] }.advance 1)

variable {r r₁ r' : Reading} {item : Item} {items items' : List Item} {args tail : List String}

/-- The reader takes the items one by one. -/
theorem scan_item (r : Reading) (item : Item) (rest : List String) :
    r.scan (item.words ++ rest) = (r.take item).bind (·.scan rest) := by
  cases item with
  | setting s value =>
    simp only [Item.words, List.cons_append, List.nil_append, scan, Word.ofString_flag, take]
    cases r.enter s value <;> rfl
  | long raw isLong =>
    simp only [Item.words, List.cons_append, List.nil_append, scan,
      Word.ofString_of_isLong isLong, take]
    rfl

theorem extends_nil_iff : r.Extends [] tail r' ↔ r' = r.advance (tail.take 1).length := by
  obtain ⟨cores, main, channels, long, count⟩ := r
  obtain ⟨cores', main', channels', long', count'⟩ := r'
  simp [extends_iff, values, words, single_nil_iff, latest_nil_iff, advance]

/-- What the reader makes of an item is what the item means on top of what was read. -/
theorem take_eq_ok_iff : r.take item = .ok r₁ ↔ r.Extends [item] [] r₁ := by
  obtain ⟨cores, main, channels, long, count⟩ := r
  obtain ⟨cores', main', channels', long', count'⟩ := r₁
  simp only [extends_iff, values, words, List.flatMap_singleton, List.take_nil, List.length_nil,
    List.filterMap_cons, List.filterMap_nil]
  cases item with
  | long raw isLong =>
    simp [take, Item.cores?, Item.value?, Item.long?, Item.words, advance, single_nil_iff,
      latest_nil_iff, eq_comm]
  | setting s value =>
    cases s with
    | coreMask | coreList =>
      simp only [take, enter, enterCores, Item.cores?, Item.value?, Item.long?, Item.words,
        single_singleton_iff]
      cases cores with
      | none =>
        simp only [Option.isSome_none, Bool.false_eq_true, if_false]
        split <;> simp [Except.map, advance, latest_nil_iff, eq_comm, *]
      | some ids => simp [Except.map]
    | memoryChannels | mainLcore =>
      simp only [take, enter, Item.cores?, Item.value?, Item.long?, Item.words, single_nil_iff]
      split <;> simp [Except.map, advance, latest_singleton_iff, latest_nil_iff, eq_comm, *]

/-- Items mean on top of a reading what the first of them mean, and the others on top of that. -/
theorem extends_append_iff : r.Extends (items ++ items') tail r' ↔
    ∃ r₁, r.Extends items [] r₁ ∧ r₁.Extends items' tail r' := by
  constructor
  · rintro ⟨hcores, hmain, hchannels, hlong, hcount⟩
    rw [List.filterMap_append] at hcores
    obtain ⟨cores, hcores, hcores'⟩ := single_append_iff.1 hcores
    rw [values, List.filterMap_append] at hmain hchannels
    obtain ⟨main, hmain, hmain'⟩ := latest_append_iff.1 hmain
    obtain ⟨channels, hchannels, hchannels'⟩ := latest_append_iff.1 hchannels
    refine ⟨⟨cores, main, channels, _, _⟩, ⟨hcores, hmain, hchannels, rfl, rfl⟩,
      ⟨hcores', hmain', hchannels', ?_, ?_⟩⟩
    · simpa using hlong
    · simpa [words, Nat.add_assoc] using hcount
  · rintro ⟨r₁, ⟨hcores, hmain, hchannels, hlong, hcount⟩,
      ⟨hcores', hmain', hchannels', hlong', hcount'⟩⟩
    refine ⟨?_, ?_, ?_, ?_, ?_⟩
    · rw [List.filterMap_append]
      exact single_append_iff.2 ⟨_, hcores, hcores'⟩
    · rw [values, List.filterMap_append]
      exact latest_append_iff.2 ⟨_, hmain, hmain'⟩
    · rw [values, List.filterMap_append]
      exact latest_append_iff.2 ⟨_, hchannels, hchannels'⟩
    · simp [hlong, hlong']
    · simp [words, hcount, hcount', Nat.add_assoc]

/-- The reader accepts items, and the end of the options after them, as what they mean. -/
theorem scan_words_eq_ok_iff (ht : Terminated tail) :
    r.scan (words items ++ tail) = .ok r' ↔ r.Extends items tail r' := by
  induction items generalizing r with
  | nil =>
    rw [extends_nil_iff]
    cases tail with
    | nil => simp [words, scan, advance, eq_comm]
    | cons arg rest =>
      obtain rfl : arg = "--" := by simpa [Terminated] using ht
      simp [words, scan, Word.ofString, eq_comm]
  | cons item items ih =>
    rw [words_cons, scan_item, ← List.singleton_append, extends_append_iff]
    simp only [← take_eq_ok_iff, ← ih]
    cases r.take item <;> simp [Except.bind]

/-- What the reader accepts consists of items and what follows the options. -/
theorem exists_items_of_scan (h : r.scan args = .ok r') :
    ∃ items tail, args = words items ++ tail ∧ Terminated tail := by
  fun_induction scan r args with
  | case1 r => exact ⟨[], [], rfl, Or.inl rfl⟩
  | case2 r arg rest hword =>
    obtain rfl := Word.eq_of_terminator hword
    exact ⟨[], "--" :: rest, rfl, Or.inr rfl⟩
  | case3 | case5 | case7 => cases h
  | case4 r arg s hword raw rest r₁ hraw ih =>
    obtain rfl := Word.eq_flag_of_setting hword
    obtain ⟨items, tail, rfl, ht⟩ := ih h
    exact ⟨.setting s raw :: items, tail, rfl, ht⟩
  | case6 r arg rest hword ih =>
    obtain ⟨items, tail, rfl, ht⟩ := ih h
    exact ⟨.long arg (Word.isLong_of_long hword) :: items, tail, rfl, ht⟩

end Reading

/-! ## Accepted argument vectors -/

section Complete

variable {available : List Nat} {args tail : List String} {name : String} {items : List Item}
  {o : Options}

/-- A completed reading has a core set that is not empty, and its main core is the last one given
or else the lowest one, if the core set is in increasing order. -/
theorem Reading.complete_eq_ok_iff {r : Reading}
    (hsorted : (r.cores.getD available).Pairwise (· ≤ ·)) :
    r.complete available name = .ok o ↔ o.programName = name ∧
      o.cores = r.cores.getD available ∧ o.cores ≠ [] ∧
      r.mainLcore.or o.cores.min? = some o.mainLcore ∧ o.mainLcore ∈ o.cores ∧
      o.memoryChannels = r.memoryChannels ∧ o.passthrough = r.passthrough ∧
      o.parsedArgs = r.parsedArgs := by
  obtain ⟨name', cores', main', channels', long', count'⟩ := o
  unfold complete
  generalize r.cores.getD available = cores at hsorted ⊢
  cases cores with
  | nil =>
    simp only [reduceCtorEq, false_iff]
    rintro ⟨-, hnil, hne, -⟩
    exact hne hnil
  | cons first rest =>
    have hmin : (first :: rest).min? = some first :=
      List.min?_eq_some_iff.2 ⟨List.mem_cons_self, by simpa using (List.pairwise_cons.1 hsorted).1⟩
    have hmain : r.mainLcore.or (first :: rest).min? = some (r.mainLcore.getD first) := by
      rw [hmin]
      cases r.mainLcore <;> rfl
    dsimp only
    split
    case isTrue hmem =>
      constructor
      · rintro ⟨⟩
        exact ⟨rfl, rfl, List.cons_ne_nil _ _, hmain, hmem, rfl, rfl, rfl⟩
      · rintro ⟨rfl, rfl, -, hmain', -, rfl, rfl, rfl⟩
        obtain rfl := Option.some.inj (hmain.symm.trans hmain')
        rfl
    case isFalse hmem =>
      simp only [reduceCtorEq, false_iff]
      rintro ⟨-, rfl, -, hmain', hmem', -⟩
      obtain rfl := Option.some.inj (hmain.symm.trans hmain')
      exact hmem hmem'

/-- The cores that a reading of items completes to are in increasing order. The processors of the
machine count only where no core set is given. -/
theorem Reading.Extends.increasing {r : Reading} (h : ({} : Reading).Extends items tail r)
    (hav : items.filterMap Item.cores? = [] → CoreSet.Sorted available) :
    (r.cores.getD available).Pairwise (· ≤ ·) := by
  have hcores : items.filterMap Item.cores? = r.cores.toList.map some := h.cores
  cases hr : r.cores with
  | none => exact (hav (by rw [hcores, hr]; rfl)).imp Nat.le_of_lt
  | some ids =>
    have hmem : some ids ∈ items.filterMap Item.cores? := by
      rw [hcores, hr]
      exact List.mem_cons_self
    obtain ⟨item, -, hitem⟩ := List.mem_filterMap.1 hmem
    unfold Item.cores? at hitem
    split at hitem
    · exact CoreSet.increasing_ofMask? (Option.some.inj hitem)
    · exact CoreSet.increasing_ofList? (Option.some.inj hitem)
    · cases hitem

/-- The options that a reading of items completes to are what the items mean. -/
theorem exists_complete_iff
    (hav : items.filterMap Item.cores? = [] → CoreSet.Sorted available) :
    (∃ r : Reading, ({} : Reading).Extends items tail r ∧ r.complete available name = .ok o) ↔
      o.programName = name ∧ Meaning available items o ∧
        o.parsedArgs = 1 + (words items).length + (tail.take 1).length := by
  constructor
  · rintro ⟨r, hr, hcomplete⟩
    obtain ⟨hname, hcores, hne, hmain, hmem, hchannels, hlong, hcount⟩ :=
      (Reading.complete_eq_ok_iff (hr.increasing hav)).1 hcomplete
    refine ⟨hname, ⟨?_, hne, ⟨_, hr.mainLcore, hmain⟩, hmem, hchannels ▸ hr.memoryChannels, ?_⟩,
      hcount.trans hr.parsedArgs⟩
    · have hgiven : items.filterMap Item.cores? = r.cores.toList.map some := hr.cores
      rw [hgiven, hcores]
      cases r.cores with
      | none => exact Or.inl ⟨rfl, rfl⟩
      | some ids => exact Or.inr rfl
    · rw [hlong, hr.passthrough]
      rfl
  · rintro ⟨hname, ⟨hcores, hne, ⟨main, hlatest, hmain⟩, hmem, hchannels, hlong⟩, hcount⟩
    obtain ⟨cores, hgiven, hset⟩ : ∃ cores : Option (List Nat),
        Single none (items.filterMap Item.cores?) cores ∧ o.cores = cores.getD available := by
      rcases hcores with ⟨hnone, hset⟩ | hone
      · exact ⟨none, hnone, hset⟩
      · exact ⟨some o.cores, hone, rfl⟩
    have hr : ({} : Reading).Extends items tail ⟨cores, main, o.memoryChannels, o.passthrough,
        o.parsedArgs⟩ := ⟨hgiven, hlatest, hchannels, hlong, hcount⟩
    exact ⟨_, hr, (Reading.complete_eq_ok_iff (hr.increasing hav)).2
      ⟨hname, hset, hne, hmain, hmem, rfl, rfl, rfl⟩⟩

theorem parse_cons_iff {rest : List String} : Options.parse available (name :: rest) = .ok o ↔
    ∃ r, ({} : Reading).scan rest = .ok r ∧ r.complete available name = .ok o := by
  rw [Options.parse]
  cases ({} : Reading).scan rest <;> simp

/-- An argument vector with a layout is accepted as what its items mean. -/
theorem Layout.parse_iff (h : Layout args name items tail)
    (hav : items.filterMap Item.cores? = [] → CoreSet.Sorted available) :
    Options.parse available args = .ok o ↔ o.programName = name ∧ Meaning available items o ∧
      o.parsedArgs = 1 + (words items).length + (tail.take 1).length := by
  rw [h.args, parse_cons_iff, ← exists_complete_iff hav]
  simp only [Reading.scan_words_eq_ok_iff h.terminated]

/-- What is accepted has a layout. -/
theorem exists_layout_of_parse (h : Options.parse available args = .ok o) :
    ∃ name items tail, Layout args name items tail := by
  cases args with
  | nil => cases h
  | cons name rest =>
    obtain ⟨r, hscan, -⟩ := parse_cons_iff.1 h
    obtain ⟨items, tail, rfl, ht⟩ := Reading.exists_items_of_scan hscan
    exact ⟨name, items, tail, rfl, ht⟩

/-- An argument vector is accepted if and only if it has a layout whose items have a meaning, and
the options are this meaning. There is one layout at most. Every refusal is an initialization
failure with an invalid argument. -/
theorem parse_eq_ok_iff (hav : CoreSet.Sorted available) (args : List String) :
    (∀ o, Options.parse available args = .ok o ↔
      ∃ items tail, Layout args o.programName items tail ∧ Meaning available items o ∧
        o.parsedArgs = 1 + (words items).length + (tail.take 1).length) ∧
    (∀ name name' items items' tail tail', Layout args name items tail →
      Layout args name' items' tail' → name = name' ∧ items = items' ∧ tail = tail') ∧
    ∀ e, (Options.parse available args).mapError Refusal.toError = .error e →
      ∃ reason, e = .initialization .einval reason := by
  refine ⟨fun o => ⟨fun h => ?_, ?_⟩, fun _ _ _ _ _ _ => Layout.unique, fun e he => ?_⟩
  · obtain ⟨name, items, tail, hlayout⟩ := exists_layout_of_parse h
    obtain ⟨rfl, hmeaning⟩ := (hlayout.parse_iff fun _ => hav).1 h
    exact ⟨items, tail, hlayout, hmeaning⟩
  · rintro ⟨items, tail, hlayout, hmeaning⟩
    exact (hlayout.parse_iff fun _ => hav).2 ⟨rfl, hmeaning⟩
  · cases hparse : Options.parse available args with
    | ok o => simp [hparse, Except.mapError] at he
    | error why =>
      rw [hparse] at he
      obtain rfl := Except.error.inj he
      exact ⟨why.reason, rfl⟩

/-- Of two main cores the last one counts, and what follows the end of the options is not read. -/
theorem parse_eq_ok_iff_withTail :
    CoreSet.Sorted [0, 1] ∧ ∃ items tail,
      Layout ["prog", "-l", "0-3", "--main-lcore", "0", "--vdev", "-n", "+4", "--main-lcore", "2",
        "--", "-l"] "prog" items tail ∧
      Meaning [0, 1] items ⟨"prog", [0, 1, 2, 3], 2, some 4, ["--vdev"], 11⟩ ∧
      11 = 1 + (words items).length + (tail.take 1).length :=
  ⟨by decide, ((parse_eq_ok_iff (by decide) _).1 ⟨"prog", _, _, _, _, _⟩).1 rfl⟩

end Complete

end CoreFleet.Launch
