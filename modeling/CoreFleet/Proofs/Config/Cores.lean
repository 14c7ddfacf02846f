import CoreFleet.Proofs.Config.Arguments
import CoreFleet.Proofs.Config.Meaning

/-!
# One core set for a document

A parser refuses an argument vector with two core options (`coreOptions`). The setters of a
configuration leave one. A document that names a mask, or a list and null for the mask, leaves one,
too. But the mask has a default, so that a document that names a list and says nothing of the mask
leaves two, and is refused (`coreOptions_of_document`).
-/

namespace CoreFleet

/-! ## Core options of an argument vector -/

namespace Launch

/-- The setting gives the core set. -/
def Setting.isCore : Setting → Bool
  | coreMask | coreList => true
  | memoryChannels | mainLcore => false

/-- The core options among arguments, each with its value, if this is not missing. The value of an
option is no option itself, whatever it looks like. -/
def coreOptions : List String → List (Setting × Option String)
  | [] => []
  | arg :: rest =>
    match Word.ofString arg with
    | .terminator => []
    | .setting s =>
      match rest with
      | [] => if s.isCore then [(s, none)] else []
      | value :: rest => (if s.isCore then [(s, some value)] else []) ++ coreOptions rest
    | .long | .unknown => coreOptions rest

variable {r : Reading} {args rest : List String}

theorem coreOptions_words (s : Setting) (value : Option String) (rest : List String) :
    coreOptions (s.words value ++ rest) =
      (if s.isCore then value.toList.map fun text => (s, some text) else []) ++
        coreOptions rest := by
  cases value with
  | none => simp [Setting.words]
  | some text =>
    simp only [Setting.words, List.cons_append, List.nil_append]
    rw [coreOptions]
    simp [Word.ofString_flag]

/-- A setting enters one core set at most, and only where it is a core option. -/
theorem Reading.length_cores_enter {r₁ : Reading} {s : Setting} {raw : String}
    (h : r.enter s raw = .ok r₁) :
    r₁.cores.toList.length ≤ r.cores.toList.length + if s.isCore then 1 else 0 := by
  have hcores {ids : Option (List Nat)} (h : r.enterCores raw ids = .ok r₁) :
      r₁.cores.toList.length ≤ r.cores.toList.length + 1 := by
    cases hr : r₁.cores <;> simp
  cases s with
  | coreMask | coreList => exact hcores h
  | memoryChannels | mainLcore =>
    unfold enter at h
    dsimp only at h
    split at h
    · obtain rfl := Except.ok.inj h
      exact Nat.le_refl _
    · cases h

theorem Reading.isCore_of_repeated {s : Setting} {raw : String}
    (h : r.enter s raw = .error .repeatedCoreSet) : s.isCore = true ∧ r.cores.isSome = true := by
  have hcores {ids : Option (List Nat)} (h : r.enterCores raw ids = .error .repeatedCoreSet) :
      r.cores.isSome = true := by
    unfold enterCores at h
    split at h
    · assumption
    · split at h <;> cases h
  cases s with
  | coreMask | coreList => exact ⟨rfl, hcores h⟩
  | memoryChannels | mainLcore =>
    unfold enter at h
    dsimp only at h
    split at h <;> cases h

/-- A second core set is refused only where there are two core options. -/
theorem Reading.two_le_of_repeated (h : r.scan args = .error .repeatedCoreSet) :
    2 ≤ r.cores.toList.length + (coreOptions args).length := by
  fun_induction Reading.scan r args with
  | case1 | case2 | case3 | case7 => cases h
  | case4 r arg s hword raw rest r₁ hraw ih =>
    have hih : 2 ≤ r₁.cores.toList.length + (coreOptions rest).length := ih h
    have hcores := length_cores_enter hraw
    simp only [coreOptions, hword, List.length_append]
    cases hs : s.isCore <;> simp [hs] at hcores ⊢ <;> omega
  | case5 r arg s hword raw rest e hraw =>
    obtain rfl := Except.error.inj h
    obtain ⟨hs, hcores⟩ := isCore_of_repeated hraw
    obtain ⟨ids, hids⟩ := Option.isSome_iff_exists.1 hcores
    simp only [coreOptions, hword, hs, hids, List.length_append, if_true, Option.toList_some,
      List.length_cons, List.length_nil]
    omega
  | case6 r arg rest hword ih =>
    have hih := ih h
    simp only [coreOptions, hword]
    exact hih

/-- An argument vector is refused for a second core set only if it has two core options. -/
theorem parse_ne_repeated {available : List Nat} {name : String}
    (h : (coreOptions args).length ≤ 1) :
    Options.parse available (name :: args) ≠ .error .repeatedCoreSet := by
  intro hparse
  rw [Options.parse] at hparse
  cases hscan : ({} : Reading).scan args with
  | error e =>
    rw [hscan] at hparse
    obtain rfl := Except.error.inj hparse
    have htwo : 2 ≤ 0 + (coreOptions args).length := Reading.two_le_of_repeated hscan
    omega
  | ok r =>
    rw [hscan] at hparse
    dsimp only [Reading.complete] at hparse
    split at hparse
    · cases hparse
    · split at hparse <;> cases hparse

end Launch

namespace Config

open CoreFleet.Launch (Setting Reading Options coreOptions coreOptions_words parse_ne_repeated)

/-- The core options of a configuration are its mask and its list, and those of its arguments. -/
theorem Launch.coreOptions_toArgs (l : Launch) : coreOptions l.toArgs.tail =
    (l.coreMask.toList.map fun text => (.coreMask, some text)) ++
      (l.coreList.toList.map fun text => (.coreList, some text)) ++ coreOptions l.args := by
  simp [Launch.toArgs_eq, Launch.coreWords, coreOptions_words, Setting.isCore]

/-- One core option is not refused as a second one. -/
theorem Launch.parse_toArgs_ne_repeated {l : Launch} {option : Setting × Option String}
    (h : coreOptions l.toArgs.tail = [option]) (available : List Nat) :
    Options.parse available l.toArgs ≠ .error .repeatedCoreSet := by
  rw [l.toArgs_eq] at h ⊢
  exact parse_ne_repeated (le_of_eq (congrArg List.length h))

/-- A mask that is well formed and a list are refused as a second core set, if nothing before them
is refused. -/
theorem Launch.parse_toArgs_repeated {l : Launch} {mask list : String} {ids : List Nat}
    (hchannels : ∀ n ∈ l.memoryChannels, n < Numeral.wordBound) (hmask : l.coreMask = some mask)
    (hids : CoreSet.ofMask? mask.toList = some ids) (hlist : l.coreList = some list)
    (available : List Nat) :
    Options.parse available l.toArgs = .error .repeatedCoreSet := by
  have hstep (r : Reading) (s : Setting) (text : String) (rest : List String) :
      r.scan (s.words (some text) ++ rest) =
        (r.take (.setting s text)).bind fun r => r.scan rest :=
    Reading.scan_item r (.setting s text) rest
  -- after the memory channels there is no core set yet
  obtain ⟨r, hr, hcores⟩ : ∃ r : Reading, r.cores = none ∧ ∀ rest,
      ({} : Reading).scan
        (Setting.memoryChannels.words (l.memoryChannels.map Numeral.text) ++ rest) =
          r.scan rest := by
    cases hn : l.memoryChannels with
    | none => exact ⟨{}, rfl, fun _ => rfl⟩
    | some n =>
      have hword : Numeral.word? (Numeral.text n).toList = some n := by
        rw [Numeral.text, String.toList_ofList]
        exact Numeral.natural?_render (hchannels n hn)
      refine ⟨({ memoryChannels := some n } : Reading).advance 2, rfl, fun rest => ?_⟩
      rw [Option.map_some, hstep]
      simp only [Reading.take, Reading.enter, hword]
      rfl
  have hscan (rest : List String) : r.scan (Setting.coreMask.words (some mask) ++
      (Setting.coreList.words (some list) ++ rest)) = .error .repeatedCoreSet := by
    rw [hstep]
    simp only [Reading.take, Reading.enter,
      Reading.enterCores, hr, hids]
    exact hstep _ _ _ _
  rw [l.toArgs_eq, Launch.coreWords, hmask, hlist, Options.parse]
  simp only [List.append_assoc, hcores, hscan]

end Config

/-! ## The core set of a document -/

/-- The default mask is well formed. -/
theorem CoreSet.ofMask?_three : ofMask? "3".toList = some [0, 1] :=
  congrArg some (List.mergeSort_of_pairwise (by decide))

namespace Json

variable {default : Option String} {v : Value}

theorem Given.eq_text {o : Option String} (h : Given (IsOptional IsText) default (some v) o)
    (hv : v ≠ .null) : ∃ s, o = some s ∧ v = .text (some s) := by
  cases o with
  | none => exact absurd h hv
  | some s => exact ⟨s, rfl, h⟩

theorem Given.eq_none {o : Option String}
    (h : Given (IsOptional IsText) default (some .null) o) : o = none :=
  (isOptional_null_iff fun _ => nofun).1 h

theorem Given.lt_of_natural {bound : Nat} {default o : Option Nat} {given : Option Value}
    (h : Given (IsOptional (IsNatural bound)) default given o)
    (hdefault : ∀ n ∈ default, n < bound) : ∀ n ∈ o, n < bound := by
  cases given with
  | none =>
    obtain rfl : o = default := h
    exact hdefault
  | some v =>
    rintro n rfl
    obtain ⟨-, -, -, hn⟩ := h
    exact hn

end Json

namespace Config

open Json
open CoreFleet.Launch (Options coreOptions)

variable {v w : Value} {text : String} {c : Config}

/-- The launch section that an accepted document gives describes the launch options. -/
theorem describes_launch (hdoc : Document v text.toList) (hc : ofJson text = .ok c)
    (hw : v.given? (keysOf columns) "eal" = some w) : Describes Launch.columns {} w c.launch := by
  have hgiven : Given (Describes Launch.columns {}) {} (v.given? (keysOf columns) "eal") c.launch :=
    ((ofJson_eq_ok_iff hdoc).1 hc).given _ List.mem_cons_self
  rwa [hw] at hgiven

/-- An accepted document whose launch section names a mask, or a list and null for the mask, has one
core option, if there is none among the further arguments, and is not refused for a second one. If
it names a list and has nothing for the mask, the mask has its default, and the document is refused
for the second core set. -/
theorem coreOptions_of_document (hdoc : Document v text.toList) (hc : ofJson text = .ok c)
    (hw : v.given? (keysOf columns) "eal" = some w) (hargs : coreOptions c.launch.args = []) :
    (∀ x, w.given? (keysOf Launch.columns) "core_mask" = some x → x ≠ .null →
      (∀ y, w.given? (keysOf Launch.columns) "core_list" = some y → y = .null) →
      ∃ mask, x = .text (some mask) ∧
        coreOptions c.launch.toArgs.tail = [(.coreMask, some mask)] ∧
        ∀ available, Options.parse available c.launch.toArgs ≠ .error .repeatedCoreSet) ∧
    ∀ x, w.given? (keysOf Launch.columns) "core_list" = some x → x ≠ .null →
      ∃ list, x = .text (some list) ∧
        (w.given? (keysOf Launch.columns) "core_mask" = some .null →
          coreOptions c.launch.toArgs.tail = [(.coreList, some list)] ∧
          ∀ available, Options.parse available c.launch.toArgs ≠ .error .repeatedCoreSet) ∧
        (w.given? (keysOf Launch.columns) "core_mask" = none →
          coreOptions c.launch.toArgs.tail = [(.coreMask, some "3"), (.coreList, some list)] ∧
          ∀ available, Options.parse available c.launch.toArgs = .error .repeatedCoreSet) := by
  have hlaunch := describes_launch hdoc hc hw
  have hchannels : Given (IsOptional (IsNatural Numeral.wordBound)) (some 4)
      (w.given? (keysOf Launch.columns) "memory_channels") c.launch.memoryChannels :=
    hlaunch.given _ (.tail _ (.head _))
  have hmask : Given (IsOptional IsText) (some "3")
      (w.given? (keysOf Launch.columns) "core_mask") c.launch.coreMask :=
    hlaunch.given _ (.tail _ (.tail _ (.head _)))
  have hlist : Given (IsOptional IsText) none
      (w.given? (keysOf Launch.columns) "core_list") c.launch.coreList :=
    hlaunch.given _ (.tail _ (.tail _ (.tail _ (.head _))))
  have hbound : ∀ n ∈ c.launch.memoryChannels, n < Numeral.wordBound :=
    hchannels.lt_of_natural (by decide)
  have htoArgs := c.launch.coreOptions_toArgs
  rw [hargs, List.append_nil] at htoArgs
  refine ⟨fun x hx hx_null hy => ?_, fun x hx hx_null => ?_⟩
  · rw [hx] at hmask
    obtain ⟨mask, hmask', rfl⟩ := hmask.eq_text hx_null
    have hnone : c.launch.coreList = none := by
      cases hgiven : w.given? (keysOf Launch.columns) "core_list" with
      | none =>
        rw [hgiven] at hlist
        exact hlist
      | some y =>
        rw [hgiven, hy y hgiven] at hlist
        exact hlist.eq_none
    have hoptions : coreOptions c.launch.toArgs.tail = [(.coreMask, some mask)] := by
      rw [htoArgs, hmask', hnone]
      rfl
    exact ⟨mask, rfl, hoptions, Launch.parse_toArgs_ne_repeated hoptions⟩
  · rw [hx] at hlist
    obtain ⟨list, hlist', rfl⟩ := hlist.eq_text hx_null
    refine ⟨list, rfl, fun hnull => ?_, fun hnone => ?_⟩
    · rw [hnull] at hmask
      have hoptions : coreOptions c.launch.toArgs.tail = [(.coreList, some list)] := by
        rw [htoArgs, hmask.eq_none, hlist']
        rfl
      exact ⟨hoptions, Launch.parse_toArgs_ne_repeated hoptions⟩
    · rw [hnone] at hmask
      have hthree : c.launch.coreMask = some "3" := hmask
      refine ⟨?_, Launch.parse_toArgs_repeated hbound hthree CoreSet.ofMask?_three hlist'⟩
      rw [htoArgs, hthree, hlist']
      rfl

/-- The document `{"eal":{"core_list":"0-3","core_mask":null}}`. -/
def listAndNullMask : String :=
  "\x7b\"eal\":\x7b\"core_list\":\"0-3\",\"core_mask\":null\x7d\x7d"

/-- A list with null for the mask is the only core option. -/
theorem coreOptions_of_document_nullMask :
    Document (.mapping [(some "eal", .mapping
        [(some "core_list", .text (some "0-3")), (some "core_mask", .null)])])
      listAndNullMask.toList ∧
    ∃ c, ofJson listAndNullMask = .ok c ∧
      coreOptions c.launch.toArgs.tail = [(.coreList, some "0-3")] ∧
      Options.parse [] c.launch.toArgs ≠ .error .repeatedCoreSet := by
  have hnil : Spaces [] := nofun
  have hkey : Plain "core_list".toList ∧ Plain "core_mask".toList ∧ Plain "eal".toList ∧
      Plain "0-3".toList := by decide
  have hsection := Spells.members hnil (hkey.1.spells_member hkey.2.2.2.spells_text)
    (.nextMember hnil (hkey.2.1.spells_member (.null hnil)) (.endMembers hnil))
  have hdoc : Document (.mapping [(some "eal", .mapping
        [(some "core_list", .text (some "0-3")), (some "core_mask", .null)])])
      listAndNullMask.toList :=
    ⟨_, [], rfl, .members hnil (hkey.2.2.1.spells_member hsection) (.endMembers hnil), hnil⟩
  have hc : ofJson listAndNullMask =
      .ok { launch := { coreMask := none, coreList := some "0-3" } } := rfl
  obtain ⟨-, hlist⟩ := coreOptions_of_document hdoc hc rfl rfl
  obtain ⟨list, hlist, hnull, -⟩ := hlist _ rfl nofun
  obtain rfl : "0-3" = list := Option.some.inj (Value.text.inj hlist)
  exact ⟨hdoc, _, hc, (hnull rfl).1, (hnull rfl).2 []⟩

/-- The document `{"eal":{"core_list":"0-3"}}`. -/
def listAlone : String := "\x7b\"eal\":\x7b\"core_list\":\"0-3\"\x7d\x7d"

/-- A list on its own is refused, though it is the only core set that the document names. -/
theorem list_alone_refused : ∃ v w c,
    Document v listAlone.toList ∧
    ofJson listAlone = .ok c ∧
    v.given? (keysOf columns) "eal" = some w ∧
    w.given? (keysOf Launch.columns) "core_list" = some (.text (some "0-3")) ∧
    w.given? (keysOf Launch.columns) "core_mask" = none ∧ coreOptions c.launch.args = [] ∧
    Options.parse [0, 1, 2, 3] c.launch.toArgs = .error .repeatedCoreSet := by
  have hnil : Spaces [] := nofun
  have hkey : Plain "core_list".toList ∧ Plain "eal".toList ∧ Plain "0-3".toList := by decide
  have hsection := Spells.members hnil (hkey.1.spells_member hkey.2.2.spells_text)
    (.endMembers hnil)
  refine ⟨_, _, { launch := { coreList := some "0-3" } }, ⟨_, [], rfl,
    .members hnil (hkey.2.1.spells_member hsection) (.endMembers hnil), hnil⟩, rfl, rfl, rfl, rfl,
    rfl, ?_⟩
  exact Launch.parse_toArgs_repeated (by decide) rfl CoreSet.ofMask?_three rfl _

end Config

end CoreFleet
