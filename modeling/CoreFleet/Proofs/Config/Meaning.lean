import CoreFleet.Config.Document
import CoreFleet.Proofs.Json.Acceptance
import CoreFleet.Proofs.Json.Arrangement

/-!
# What configuration documents mean

The columns of the sections say what each member of a document means, and `ofJson_eq_ok_iff` that a
document is accepted as the configuration that it describes. Nothing else is accepted
(`accepted_iff`). `ofJson_mapping` puts this in terms of the members of objects, at both levels.
-/

namespace CoreFleet.Config

open Json

/-! ## Columns -/

/-- The columns of the launch section. -/
def Launch.columns : List (Column Launch) := [
  ⟨"program_name", Json.text, IsText, Launch.programName, fun l s => { l with programName := s }⟩,
  ⟨"memory_channels", Json.optional Json.word32, IsOptional (IsNatural Numeral.wordBound),
    Launch.memoryChannels, fun l n => { l with memoryChannels := n }⟩,
  ⟨"core_mask", Json.optional Json.text, IsOptional IsText, Launch.coreMask,
    fun l s => { l with coreMask := s }⟩,
  ⟨"core_list", Json.optional Json.text, IsOptional IsText, Launch.coreList,
    fun l s => { l with coreList := s }⟩,
  ⟨"main_lcore", Json.optional Json.word32, IsOptional (IsNatural Numeral.wordBound),
    Launch.mainLcore, fun l n => { l with mainLcore := n }⟩,
  ⟨"args", Json.sequence Json.text, IsSequence IsText, Launch.args, fun l args => { l with args }⟩]

/-- The columns of the section on the workers. -/
def tuningColumns : List (Column Tuning) := [
  ⟨"pipeline_quanta", Json.word32, IsNatural Numeral.wordBound, Tuning.pipelineQuanta,
    fun t n => { t with pipelineQuanta := n }⟩,
  ⟨"control_interval", Json.word32, IsNatural Numeral.wordBound, Tuning.controlInterval,
    fun t n => { t with controlInterval := n }⟩,
  ⟨"idle_poll_us", Json.word64, IsNatural Numeral.longBound, Tuning.idlePollUs,
    fun t n => { t with idlePollUs := n }⟩]

/-- The columns of the heartbeat section. -/
def Heartbeat.columns : List (Column Heartbeat) := [
  ⟨"thread_id", Json.optional Json.word32, IsOptional (IsNatural Numeral.wordBound),
    Heartbeat.worker, fun h n => { h with worker := n }⟩,
  ⟨"period_ms", Json.word64, IsNatural Numeral.longBound, Heartbeat.periodMs,
    fun h n => { h with periodMs := n }⟩]

/-- The columns of a configuration, which are its sections but for the last one. -/
def columns : List (Column Config) := [
  ⟨"eal", Launch.reader, Describes Launch.columns {}, Config.launch,
    fun c launch => { c with launch }⟩,
  ⟨"threads", tuningReader, Describes tuningColumns {}, Config.tuning,
    fun c tuning => { c with tuning }⟩,
  ⟨"heartbeat", Heartbeat.reader, Describes Heartbeat.columns {}, Config.heartbeat,
    fun c heartbeat => { c with heartbeat }⟩,
  ⟨"stop_timeout_ms", Json.word64, IsNatural Numeral.longBound, Config.stopTimeoutMs,
    fun c n => { c with stopTimeoutMs := n }⟩]

theorem reads_optionalText : Reads (Json.optional Json.text) (IsOptional IsText) :=
  reads_optional reads_text fun _ => nofun

theorem reads_word32 : Reads Json.word32 (IsNatural Numeral.wordBound) :=
  reads_natural (by decide)

theorem reads_optionalWord32 :
    Reads (Json.optional Json.word32) (IsOptional (IsNatural Numeral.wordBound)) :=
  reads_optional reads_word32 fun _ => nofun

theorem reads_word64 : Reads Json.word64 (IsNatural Numeral.longBound) :=
  reads_natural (Nat.le_refl _)

theorem Launch.lawful : Lawful Launch.columns where
  nodup := by decide
  reads := by
    simp [Launch.columns, reads_text, reads_optionalText, reads_optionalWord32, reads_sequence]
  get_set := by simp [Launch.columns]
  get_set_of_ne := by simp [Launch.columns]
  ext := by
    rintro ⟨⟩ ⟨⟩
    simp [Launch.columns]

theorem lawful_tuning : Lawful tuningColumns where
  nodup := by decide
  reads := by simp [tuningColumns, reads_word32, reads_word64]
  get_set := by simp [tuningColumns]
  get_set_of_ne := by simp [tuningColumns]
  ext := by
    rintro ⟨⟩ ⟨⟩
    simp [tuningColumns]

theorem Heartbeat.lawful : Lawful Heartbeat.columns where
  nodup := by decide
  reads := by simp [Heartbeat.columns, reads_optionalWord32, reads_word64]
  get_set := by simp [Heartbeat.columns]
  get_set_of_ne := by simp [Heartbeat.columns]
  ext := by
    rintro ⟨⟩ ⟨⟩
    simp [Heartbeat.columns]

theorem Launch.reads : Reads Launch.reader (Describes Launch.columns {}) :=
  reads_record Launch.lawful

theorem reads_tuning : Reads tuningReader (Describes tuningColumns {}) :=
  reads_record lawful_tuning

theorem Heartbeat.reads : Reads Heartbeat.reader (Describes Heartbeat.columns {}) :=
  reads_record Heartbeat.lawful

theorem lawful : Lawful columns where
  nodup := by decide
  reads := by simp [columns, Launch.reads, reads_tuning, Heartbeat.reads, reads_word64]
  get_set := by simp [columns]
  get_set_of_ne := by simp [columns]
  ext := by
    rintro ⟨⟩ ⟨⟩
    simp [columns]

/-- A document is accepted as the configuration that it describes. -/
theorem ofJson_eq_ok_iff {v : Value} {text : String} (hdoc : Document v text.toList) {c : Config} :
    ofJson text = .ok c ↔ Describes columns {} v c :=
  document_eq_ok_iff (reads_record lawful) hdoc

theorem takes_reader : Takes reader := by
  have hlaunch : Takes Launch.reader := takes_record <|
    .cons takes_text <| .cons (takes_optional takes_natural) <| .cons (takes_optional takes_text) <|
    .cons (takes_optional takes_text) <| .cons (takes_optional takes_natural) <|
    .cons (takes_sequence takes_text) takeEach_nil
  have htuning : Takes tuningReader := takes_record <|
    .cons takes_natural <| .cons takes_natural <| .cons takes_natural takeEach_nil
  have hheartbeat : Takes Heartbeat.reader := takes_record <|
    .cons (takes_optional takes_natural) <| .cons takes_natural takeEach_nil
  exact takes_record <|
    .cons hlaunch <| .cons htuning <| .cons hheartbeat <| .cons takes_natural takeEach_nil

/-- The texts that are accepted are the documents that describe a configuration. -/
theorem accepted_iff {text : String} {c : Config} :
    ofJson text = .ok c ↔ ∃ v, Document v text.toList ∧ Describes columns {} v c := by
  constructor
  · intro h
    obtain ⟨v, hdoc⟩ := exists_document takes_reader h
    exact ⟨v, hdoc, (ofJson_eq_ok_iff hdoc).1 h⟩
  · rintro ⟨v, hdoc, hdescribes⟩
    exact (ofJson_eq_ok_iff hdoc).2 hdescribes

/-! ## Objects -/

/-- The keys of the sections. -/
def sectionKeys : List String := ["eal", "threads", "heartbeat"]

/-- The keys of the fields of a section. -/
def innerKeys : String → List String
  | "eal" => keysOf Launch.columns
  | "threads" => keysOf tuningColumns
  | "heartbeat" => keysOf Heartbeat.columns
  | _ => []

/-- The members of a section, none if the section is not given. -/
def sectionOf (ms : List Member) (key : String) : List Member :=
  match given? ms key with
  | some (.mapping inner) => inner
  | _ => []

/-- The sections that are given are objects, and keys are Unicode texts at both levels. -/
structure Sectioned (ms : List Member) : Prop where
  unicode : ∀ m ∈ ms, m.1 ≠ none
  inner : ∀ key ∈ sectionKeys, ∀ v, (some key, v) ∈ ms →
    ∃ inner, v = .mapping inner ∧ ∀ m ∈ inner, m.1 ≠ none

/-- At both levels no field is given twice, and what is given for a field is of its type. -/
structure Fitting (ms : List Member) : Prop where
  once : Once (keysOf columns) ms
  launch : ∀ inner, (some "eal", .mapping inner) ∈ ms → Fits Launch.columns inner
  tuning : ∀ inner, (some "threads", .mapping inner) ∈ ms → Fits tuningColumns inner
  heartbeat : ∀ inner, (some "heartbeat", .mapping inner) ∈ ms → Fits Heartbeat.columns inner
  stopTimeout : ∀ v, (some "stop_timeout_ms", v) ∈ ms → ∃ n, IsNatural Numeral.longBound v n

/-- Every field holds what the members give for it, or else its default. -/
def Holds {σ : Type} (columns : List (Column σ)) (default : σ) (ms : List Member) (r : σ) : Prop :=
  ∀ c ∈ columns, Given c.Means (c.get default) (given? ms c.key) (c.get r)

/-- Every field of every section holds what is given for it, or else its default. -/
structure Follows (ms : List Member) (c : Config) : Prop where
  launch : Holds Launch.columns {} (sectionOf ms "eal") c.launch
  tuning : Holds tuningColumns {} (sectionOf ms "threads") c.tuning
  heartbeat : Holds Heartbeat.columns {} (sectionOf ms "heartbeat") c.heartbeat
  stopTimeout : Given (IsNatural Numeral.longBound) 1000 (given? ms "stop_timeout_ms")
    c.stopTimeoutMs

/-- The configuration does without the field of a section. -/
def Absent (c : Config) : String → String → Prop
  | "eal", "memory_channels" => c.launch.memoryChannels = none
  | "eal", "core_mask" => c.launch.coreMask = none
  | "eal", "core_list" => c.launch.coreList = none
  | "eal", "main_lcore" => c.launch.mainLcore = none
  | "heartbeat", "thread_id" => c.heartbeat.worker = none
  | _, _ => False

/-- Two values of a member make no difference : no field has its key, or both are sections whose
members are rearranged. Of a member of no field in a section, the value may be any. -/
def Alike (key : String) (v v' : Value) : Prop :=
  key ∉ keysOf columns ∨ key ∈ sectionKeys ∧ ∃ ms ms', v = .mapping ms ∧ v' = .mapping ms' ∧
    Rearranged (innerKeys key) (fun k _ _ => k ∉ innerKeys key) ms ms'

variable {ms ms' : List Member} {text text' : String} {c : Config}

/-- What is given once for a section is an object. -/
theorem Sectioned.given (h : Sectioned ms) {key : String} (hkey : key ∈ sectionKeys) {v : Value}
    (hv : given? ms key = some v) : ∃ inner, v = .mapping inner ∧ ∀ m ∈ inner, m.1 ≠ none := by
  obtain ⟨⟨k, w⟩, hfind, rfl⟩ := Option.map_eq_some_iff.1 hv
  have hk : k = some key := by simpa using List.find?_some hfind
  exact h.inner key hkey w (hk ▸ List.mem_of_find?_eq_some hfind)

theorem fits_iff_fitting (h : Sectioned ms) : Fits columns ms ↔ Fitting ms := by
  have htyped {σ : Type} {inner : List (Column σ)} (default : σ) (hlawful : Lawful inner)
      (key : String) (hkey : key ∈ sectionKeys) :
      (∀ v, (some key, v) ∈ ms → ∃ a, Describes inner default v a) ↔
        ∀ ms', (some key, .mapping ms') ∈ ms → Fits inner ms' := by
    constructor
    · rintro hv ms' hmem
      obtain ⟨a, ha⟩ := hv _ hmem
      exact ha.fits
    · rintro hfits v hmem
      obtain ⟨ms', rfl, hunicode⟩ := h.inner key hkey v hmem
      exact (exists_describes_iff hlawful hunicode).2 (hfits ms' hmem)
  have hlaunch := htyped {} Launch.lawful "eal" (by decide)
  have htuning := htyped {} lawful_tuning "threads" (by decide)
  have hheartbeat := htyped {} Heartbeat.lawful "heartbeat" (by decide)
  constructor
  · rintro ⟨honce, htyped⟩
    simp only [columns, List.forall_mem_cons] at htyped
    exact ⟨honce, hlaunch.1 htyped.1, htuning.1 htyped.2.1, hheartbeat.1 htyped.2.2.1,
      htyped.2.2.2.1⟩
  · rintro ⟨honce, hl, ht, hh, hs⟩
    refine ⟨honce, ?_⟩
    simp only [columns, List.forall_mem_cons]
    exact ⟨hlaunch.2 hl, htuning.2 ht, hheartbeat.2 hh, hs, nofun⟩

/-- A section that is not given has no members, and all its fields have their defaults. -/
theorem holds_sectionOf {σ : Type} {columns : List (Column σ)} {default r : σ} {key : String}
    (h : Sectioned ms) (hkey : key ∈ sectionKeys)
    (hgiven : Given (Describes columns default) default (given? ms key) r) :
    Holds columns default (sectionOf ms key) r := by
  intro c hc
  unfold sectionOf
  cases hv : given? ms key with
  | none =>
    rw [hv] at hgiven
    obtain rfl : r = default := hgiven
    rfl
  | some v =>
    obtain ⟨inner, rfl, -⟩ := h.given hkey hv
    rw [hv] at hgiven
    exact hgiven.given c hc

theorem follows_of_describes (h : Sectioned ms)
    (hdescribes : Describes columns {} (.mapping ms) c) : Follows ms c := by
  have hgiven := hdescribes.given
  simp only [columns, List.forall_mem_cons] at hgiven
  obtain ⟨hlaunch, htuning, hheartbeat, hstop, -⟩ := hgiven
  exact ⟨holds_sectionOf h (by decide) hlaunch, holds_sectionOf h (by decide) htuning,
    holds_sectionOf h (by decide) hheartbeat, hstop⟩

/-- What is null is of the type of five fields. -/
theorem null_fits_iff :
    (∀ col ∈ Launch.columns, (∃ a, col.Means .null a) ↔
      col.key ∈ ["memory_channels", "core_mask", "core_list", "main_lcore"]) ∧
    (∀ col ∈ tuningColumns, ¬ ∃ a, col.Means .null a) ∧
    (∀ col ∈ Heartbeat.columns, (∃ a, col.Means .null a) ↔ col.key = "thread_id") ∧
    (∀ col ∈ columns, ¬ ∃ a, col.Means .null a) := by
  have hrecord {σ : Type} {columns : List (Column σ)} {default r : σ} :
      ¬ Describes columns default .null r := fun h => h.isRecord
  refine ⟨?_, ?_, ?_, ?_⟩
  · simp [Launch.columns]
  · simp [tuningColumns]
  · simp [Heartbeat.columns]
  · simp [columns, hrecord]

/-- Null for a field of a section means that the configuration does without it. -/
theorem Follows.absent (h : Follows ms c) {key field : String} (hkey : key ∈ sectionKeys)
    (hfield : field ∈ innerKeys key) (hnull : given? (sectionOf ms key) field = some .null) :
    Absent c key field := by
  have habsent {σ : Type} {columns : List (Column σ)} {default r : σ}
      (hholds : Holds columns default (sectionOf ms key) r)
      (hcolumns : ∀ col ∈ columns, col.Means .null (col.get r) → Absent c key col.key)
      (hfield : field ∈ keysOf columns) : Absent c key field := by
    obtain ⟨col, hcol, rfl⟩ := List.mem_map.1 hfield
    have hgiven := hholds col hcol
    rw [hnull] at hgiven
    exact hcolumns col hcol hgiven
  simp only [sectionKeys, List.mem_cons, List.not_mem_nil, or_false] at hkey
  rcases hkey with rfl | rfl | rfl
  · exact habsent h.launch (by simp [Launch.columns, Absent]) hfield
  · exact habsent h.tuning (by simp [tuningColumns]) hfield
  · exact habsent h.heartbeat (by simp [Heartbeat.columns, Absent]) hfield

/-- Rearranged sections mean the same. -/
theorem Alike.means_iff {col : Column Config} (hcol : col ∈ columns) {v v' : Value}
    (h : Alike col.key v v') (a : col.α) : col.Means v a ↔ col.Means v' a := by
  have hinner {σ : Type} {inner : List (Column σ)} {default r : σ} {ms ms' : List Member}
      (hms : Rearranged (keysOf inner) (fun k _ _ => k ∉ keysOf inner) ms ms') :
      Describes inner default (.mapping ms) r ↔ Describes inner default (.mapping ms') r :=
    hms.describes_iff fun d hd _ _ hnot => absurd (List.mem_map_of_mem hd) hnot
  obtain ⟨-, ms, ms', rfl, rfl, hms⟩ := h.resolve_left fun hnot => hnot (List.mem_map_of_mem hcol)
  simp only [columns, List.mem_cons, List.not_mem_nil, or_false] at hcol
  rcases hcol with rfl | rfl | rfl | rfl
  · exact hinner hms
  · exact hinner hms
  · exact hinner hms
  · simp [IsNatural]

/-- Documents mean what their members say, at both levels. A document of objects is accepted just if
no field is given twice and what is given is of the type of its field, and then every field is what
is given for it, or its default. Members may be rearranged at both levels, and others of no field
added, with any values. Null is of the type of five fields, which it leaves out. -/
theorem ofJson_mapping (hdoc : Document (.mapping ms) text.toList) :
    (Sectioned ms → ((∃ c, ofJson text = .ok c) ↔ Fitting ms) ∧
      ∀ c, ofJson text = .ok c → Follows ms c ∧
        ∀ key ∈ sectionKeys, ∀ field ∈ innerKeys key,
          given? (sectionOf ms key) field = some .null → Absent c key field) ∧
    (∀ ms' text', Rearranged (keysOf columns) Alike ms ms' →
      Document (.mapping ms') text'.toList → ∀ c, ofJson text = .ok c ↔ ofJson text' = .ok c) ∧
    (∀ c, ofJson text = .ok c → Once (keysOf columns) ms ∧
      ∀ key ∈ keysOf columns, (some key, .null) ∉ ms) ∧
    (∀ col ∈ Launch.columns, (∃ a, col.Means .null a) ↔
      col.key ∈ ["memory_channels", "core_mask", "core_list", "main_lcore"]) ∧
    (∀ col ∈ tuningColumns, ¬ ∃ a, col.Means .null a) ∧
    (∀ col ∈ Heartbeat.columns, (∃ a, col.Means .null a) ↔ col.key = "thread_id") := by
  obtain ⟨hlaunch, htuning, hheartbeat, hcolumns⟩ := null_fits_iff
  refine ⟨fun hsectioned => ⟨?_, fun c hc => ?_⟩, fun ms' text' hms hdoc' c => ?_, fun c hc => ?_,
    hlaunch, htuning, hheartbeat⟩
  · simp only [ofJson_eq_ok_iff hdoc]
    rw [exists_describes_iff lawful hsectioned.unicode, fits_iff_fitting hsectioned]
  · have hfollows := follows_of_describes hsectioned ((ofJson_eq_ok_iff hdoc).1 hc)
    exact ⟨hfollows, fun _ hkey _ hfield hnull => hfollows.absent hkey hfield hnull⟩
  · rw [ofJson_eq_ok_iff hdoc, ofJson_eq_ok_iff hdoc']
    exact hms.describes_iff fun col hcol v v' halike => halike.means_iff hcol
  · have hfits := ((ofJson_eq_ok_iff hdoc).1 hc).fits
    refine ⟨hfits.once, fun key hkey hmem => ?_⟩
    obtain ⟨col, hcol, rfl⟩ := List.mem_map.1 hkey
    exact hcolumns col hcol (hfits.typed col hcol _ hmem)

/-- The document `{"eal":{"core_mask":null}}`. -/
def nullMask : String := "\x7b\"eal\":\x7b\"core_mask\":null\x7d\x7d"

/-- The document `{"x":[],"eal":{"core_mask":null}}`. -/
def strangerAndNullMask : String :=
  "\x7b\"x\":[],\"eal\":\x7b\"core_mask\":null\x7d\x7d"

/-- A core mask that is null leaves the mask out, and the memory channels keep their default, also
if there is a member of no field before it. -/
theorem ofJson_mapping_nullMask :
    Document (.mapping [(some "eal", .mapping [(some "core_mask", .null)])]) nullMask.toList ∧
      ∃ c, ofJson nullMask = .ok c ∧ ofJson strangerAndNullMask = .ok c ∧
        c.launch.coreMask = none ∧ c.launch.memoryChannels = some 4 := by
  have hnil : Spaces [] := nofun
  have hkey : Plain "core_mask".toList ∧ Plain "eal".toList ∧ Plain "x".toList := by decide
  have hsection := Spells.members hnil (hkey.1.spells_member (.null hnil)) (.endMembers hnil)
  have heal := hkey.2.1.spells_member hsection
  have hdoc : Document (.mapping [(some "eal", .mapping [(some "core_mask", .null)])])
      nullMask.toList :=
    ⟨_, [], rfl, .members hnil heal (.endMembers hnil), hnil⟩
  have hdoc' : Document
      (.mapping [(some "x", .sequence []), (some "eal", .mapping [(some "core_mask", .null)])])
      strangerAndNullMask.toList :=
    ⟨_, [], rfl, .members hnil (hkey.2.2.spells_member (.noItems hnil hnil))
      (.nextMember hnil heal (.endMembers hnil)), hnil⟩
  obtain ⟨hobjects, hrearranged, -⟩ := ofJson_mapping hdoc
  obtain ⟨haccepted, hmeaning⟩ := hobjects ⟨by simp, by simp [sectionKeys]⟩
  obtain ⟨c, hc⟩ := haccepted.2
    ⟨by simp [Once, columns, keysOf], by
      simp only [List.mem_singleton, Prod.mk.injEq, true_and, Value.mapping.injEq, forall_eq]
      exact ⟨by simp [Once, Launch.columns, keysOf], by simp [Launch.columns]⟩,
      by simp, by simp, by simp⟩
  obtain ⟨hfollows, hnull⟩ := hmeaning c hc
  refine ⟨hdoc, c, hc, (hrearranged _ _ (.add (by decide)) hdoc' c).1 hc, ?_, ?_⟩
  · exact hnull "eal" (by decide) "core_mask" (by decide) rfl
  · exact hfollows.launch _ (List.mem_cons_of_mem _ List.mem_cons_self)

end CoreFleet.Config
