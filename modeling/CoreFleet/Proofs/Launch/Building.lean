import CoreFleet.Launch.Builder
import CoreFleet.Proofs.Launch.Grammar

/-!
# Parsing undoes building

A builder writes one item for every call but those for the program name (`Buildable.layout`). The
items mean what the calls gave (`Buildable.meaning`), so that the reader gives back the
options that the calls describe : `parse_toArgs`. Calls of different kinds may stand in any order
(`Interleaved`), as all that the options tell of the calls is told by the calls of each kind.
-/

namespace CoreFleet.Launch

namespace Builder

/-! ## What calls give -/

/-- What a call is about. -/
inductive Kind
  | programName
  | cores
  | memoryChannels
  | mainLcore
  | arg
  deriving DecidableEq

namespace Call

/-- What the call is about. -/
def kind : Call → Kind
  | programName _ => .programName
  | coreMask _ | coreList _ => .cores
  | memoryChannels _ => .memoryChannels
  | mainLcore _ => .mainLcore
  | arg _ => .arg

/-- The program name that the call gives. -/
def programName? : Call → Option String
  | programName name => some name
  | _ => none

/-- What the text of the core set denotes, if the call gives one. -/
def cores? : Call → Option (Option (List Nat))
  | coreMask text => some (CoreSet.ofMask? text.toList)
  | coreList text => some (CoreSet.ofList? text.toList)
  | _ => none

/-- The number of memory channels that the call gives. -/
def memoryChannels? : Call → Option Nat
  | memoryChannels n => some n
  | _ => none

/-- The main core that the call gives. -/
def mainLcore? : Call → Option Nat
  | mainLcore id => some id
  | _ => none

/-- The argument that the call adds as it is. -/
def arg? : Call → Option String
  | arg raw => some raw
  | _ => none

/-- The item that the call adds. -/
def item? : Call → Option Item
  | programName _ => none
  | coreMask text => some (.setting .coreMask text)
  | coreList text => some (.setting .coreList text)
  | memoryChannels n => some (.setting .memoryChannels (Numeral.text n))
  | mainLcore id => some (.setting .mainLcore (Numeral.text id))
  | arg raw => if h : IsLong raw then some (.long raw h) else none

theorem item?_arg {raw : String} (h : IsLong raw) : (arg raw).item? = some (.long raw h) := by
  simp [item?, h]

end Call

/-- The calls give a program name, and one core set that is not empty and holds the main core, if
one is given. Numbers fit a word, and every other argument is a long option. -/
structure Buildable (calls : List Call) : Prop where
  programName : calls.filterMap Call.programName? ≠ []
  cores : ∃ ids, calls.filterMap Call.cores? = [some ids] ∧ ids ≠ [] ∧
    ∀ id ∈ (calls.filterMap Call.mainLcore?).getLast?, id ∈ ids
  memoryChannels : ∀ n ∈ calls.filterMap Call.memoryChannels?, n < Numeral.wordBound
  mainLcore : ∀ id ∈ calls.filterMap Call.mainLcore?, id < Numeral.wordBound
  arg : ∀ raw ∈ calls.filterMap Call.arg?, IsLong raw

/-- The options that the calls describe. -/
structure Describes (calls : List Call) (o : Options) : Prop where
  programName : (calls.filterMap Call.programName?).getLast? = some o.programName
  cores : calls.filterMap Call.cores? = [some o.cores]
  /-- The main core is the last one that is given, or else the lowest one. -/
  mainLcore : (calls.filterMap Call.mainLcore?).getLast?.or o.cores.min? = some o.mainLcore
  memoryChannels : o.memoryChannels = (calls.filterMap Call.memoryChannels?).getLast?
  passthrough : o.passthrough = calls.filterMap Call.arg?
  parsedArgs : o.parsedArgs = (ofCalls calls).toArgs.length

/-- The calls of each kind are the same, in the same order. -/
def Interleaved (calls calls' : List Call) : Prop :=
  ∀ k, calls.filter (·.kind = k) = calls'.filter (·.kind = k)

/-! ## The items of a builder -/

variable {available : List Nat} {calls calls' : List Call} {o : Options}

theorem apply_programName (b : Builder) (c : Call) :
    (b.apply c).programName = c.programName?.getD b.programName := by
  cases c <;> rfl

theorem apply_args (b : Builder) {c : Call} (h : ∀ raw ∈ c.arg?, IsLong raw) :
    (b.apply c).args = b.args ++ words c.item?.toList := by
  cases c with
  | programName name => exact (List.append_nil _).symm
  | arg raw =>
    have hlong : IsLong raw := h raw rfl
    simp [apply, Call.item?_arg hlong, words, Item.words]
  | coreMask | coreList | memoryChannels | mainLcore => rfl

theorem foldl_apply_programName (b : Builder) (calls : List Call) :
    (calls.foldl apply b).programName =
      (calls.filterMap Call.programName?).getLast?.getD b.programName := by
  induction calls generalizing b with
  | nil => rfl
  | cons c calls ih =>
    rw [List.foldl_cons, ih, apply_programName, List.filterMap_cons]
    cases c.programName? with
    | none => rfl
    | some name => simp [List.getLast?_cons]

theorem foldl_apply_args (b : Builder) (h : ∀ raw ∈ calls.filterMap Call.arg?, IsLong raw) :
    (calls.foldl apply b).args = b.args ++ words (calls.filterMap Call.item?) := by
  induction calls generalizing b with
  | nil => exact (List.append_nil _).symm
  | cons c calls ih =>
    have hc (raw : String) (hraw : raw ∈ c.arg?) : IsLong raw :=
      h raw (List.mem_filterMap.2 ⟨c, List.mem_cons_self, hraw⟩)
    have hcalls (raw : String) (hraw : raw ∈ calls.filterMap Call.arg?) : IsLong raw := by
      obtain ⟨c', hc', hraw⟩ := List.mem_filterMap.1 hraw
      exact h raw (List.mem_filterMap.2 ⟨c', List.mem_cons_of_mem c hc', hraw⟩)
    rw [List.foldl_cons, ih _ hcalls, apply_args b hc, List.append_assoc, List.filterMap_cons]
    cases c.item? <;> simp [words]

/-- A builder writes the last program name, and the items of the calls. -/
theorem Buildable.layout (h : Buildable calls)
    (hname : (calls.filterMap Call.programName?).getLast? = some o.programName) :
    Layout (ofCalls calls).toArgs o.programName (calls.filterMap Call.item?) [] where
  args := by
    rw [toArgs, ofCalls, foldl_apply_programName, foldl_apply_args _ h.arg, hname]
    simp
  terminated := Or.inl rfl

/-! ## The meaning of the items -/

/-- Numerals that a builder writes are read as the numbers they were written for. -/
theorem latest_text {ns : List Nat} (h : ∀ n ∈ ns, n < Numeral.wordBound) :
    Latest none (ns.map Numeral.text) ns.getLast? := by
  refine ⟨ns, ?_, (Option.or_none).symm⟩
  rw [List.forall₂_map_left_iff, List.forall₂_same]
  intro n hn
  rw [← Numeral.word?_eq_some_iff, Numeral.text, String.toList_ofList]
  exact Numeral.natural?_render (h n hn)

/-- What the items of the calls give is what the calls give. -/
theorem filterMap_items {α : Type} {f : Call → Option α} {g : Item → Option α}
    (h : ∀ raw ∈ calls.filterMap Call.arg?, IsLong raw)
    (hfg : ∀ c, (∀ raw ∈ c.arg?, IsLong raw) → c.item?.bind g = f c) :
    (calls.filterMap Call.item?).filterMap g = calls.filterMap f := by
  rw [List.filterMap_filterMap]
  exact List.filterMap_congr fun c hc =>
    hfg c fun raw hraw => h raw (List.mem_filterMap.2 ⟨c, hc, hraw⟩)

namespace Buildable

theorem items_eq (h : Buildable calls) :
    (calls.filterMap Call.item?).filterMap Item.cores? = calls.filterMap Call.cores? ∧
    values .memoryChannels (calls.filterMap Call.item?) =
      (calls.filterMap Call.memoryChannels?).map Numeral.text ∧
    values .mainLcore (calls.filterMap Call.item?) =
      (calls.filterMap Call.mainLcore?).map Numeral.text ∧
    (calls.filterMap Call.item?).filterMap Item.long? = calls.filterMap Call.arg? := by
  rw [List.map_filterMap, List.map_filterMap]
  refine ⟨filterMap_items h.arg ?_, filterMap_items h.arg ?_, filterMap_items h.arg ?_,
    filterMap_items h.arg ?_⟩
  -- of the calls only `arg` has an item that depends on the form of its text
  all_goals
    intro c hc
    cases c with
    | arg raw => rw [Call.item?_arg (hc raw rfl)]; rfl
    | programName | coreMask | coreList | memoryChannels | mainLcore => rfl

/-- Calls with a program name and a core set describe options. -/
theorem exists_describes (h : Buildable calls) : ∃ o, Describes calls o := by
  obtain ⟨ids, hcores, hne, -⟩ := h.cores
  obtain ⟨name, hname⟩ :=
    Option.ne_none_iff_exists'.1 (mt List.getLast?_eq_none_iff.1 h.programName)
  obtain ⟨first, hfirst⟩ := Option.ne_none_iff_exists'.1 (mt List.min?_eq_none_iff.1 hne)
  obtain ⟨main, hmain⟩ : ∃ main,
      (calls.filterMap Call.mainLcore?).getLast?.or ids.min? = some main := by
    cases (calls.filterMap Call.mainLcore?).getLast? with
    | none => exact ⟨first, hfirst⟩
    | some id => exact ⟨id, rfl⟩
  exact ⟨⟨name, ids, main, _, _, _⟩, hname, hcores, hmain, rfl, rfl, rfl⟩

/-- The items of the calls mean what the calls describe. -/
theorem meaning (h : Buildable calls) (ho : Describes calls o) :
    Meaning available (calls.filterMap Call.item?) o := by
  obtain ⟨ids, hcores, hne, hmem⟩ := h.cores
  obtain rfl : ids = o.cores := by simpa using hcores.symm.trans ho.cores
  obtain ⟨hcores', hchannels', hmain', hlong'⟩ := h.items_eq
  refine ⟨Or.inr (hcores'.trans hcores), hne, ⟨_, ?_, ho.mainLcore⟩, ?_, ?_, ?_⟩
  · rw [hmain']
    exact latest_text h.mainLcore
  · have hmain := ho.mainLcore
    cases hlast : (calls.filterMap Call.mainLcore?).getLast? with
    | none =>
      rw [hlast] at hmain
      exact List.min?_mem hmain
    | some id =>
      rw [hlast] at hmain
      obtain rfl : id = o.mainLcore := Option.some.inj hmain
      exact hmem _ hlast
  · rw [hchannels', ho.memoryChannels]
    exact latest_text h.memoryChannels
  · rw [hlong', ho.passthrough]

/-- The reader gives back what the calls describe. -/
theorem parse_eq_ok (h : Buildable calls) (ho : Describes calls o) :
    Options.parse available (ofCalls calls).toArgs = .ok o := by
  have hlayout := h.layout ho.programName
  refine (hlayout.parse_iff fun hnone => ?_).2 ⟨rfl, h.meaning ho, ?_⟩
  · rw [h.items_eq.1, ho.cores] at hnone
    cases hnone
  · rw [ho.parsedArgs, hlayout.args]
    simp [Nat.add_comm]

end Buildable

/-! ## Interleaving -/

namespace Interleaved

/-- What is told by the calls of one kind does not depend on the others. -/
theorem filterMap_eq {α : Type} {f : Call → Option α} (h : Interleaved calls calls') (k : Kind)
    (hf : ∀ c, c.kind ≠ k → f c = none) : calls.filterMap f = calls'.filterMap f := by
  have hfilter (calls : List Call) :
      (calls.filter (·.kind = k)).filterMap f = calls.filterMap f := by
    rw [List.filterMap_filter]
    refine List.filterMap_congr fun c _ => ?_
    by_cases hc : c.kind = k
    · simp [hc]
    · simp [hc, hf c hc]
  rw [← hfilter calls, h k, hfilter calls']

theorem perm (h : Interleaved calls calls') : calls.Perm calls' := by
  rw [List.perm_iff_count]
  intro c
  -- a call occurs as often as it does among the calls of its kind
  have hcount (calls : List Call) : (calls.filter (·.kind = c.kind)).count c = calls.count c :=
    List.count_filter (by simp)
  rw [← hcount calls, h c.kind, hcount calls']

/-- Interleaved calls give the same. -/
theorem given_eq (h : Interleaved calls calls') :
    calls.filterMap Call.programName? = calls'.filterMap Call.programName? ∧
    calls.filterMap Call.cores? = calls'.filterMap Call.cores? ∧
    calls.filterMap Call.memoryChannels? = calls'.filterMap Call.memoryChannels? ∧
    calls.filterMap Call.mainLcore? = calls'.filterMap Call.mainLcore? ∧
    calls.filterMap Call.arg? = calls'.filterMap Call.arg? := by
  refine ⟨h.filterMap_eq .programName ?_, h.filterMap_eq .cores ?_,
    h.filterMap_eq .memoryChannels ?_, h.filterMap_eq .mainLcore ?_, h.filterMap_eq .arg ?_⟩
  all_goals
    intro c hc
    cases c <;> first | rfl | exact absurd rfl hc

theorem buildable (h : Interleaved calls calls') (hcalls : Buildable calls) :
    Buildable calls' := by
  obtain ⟨hname, hcores, hchannels, hmain, harg⟩ := h.given_eq
  obtain ⟨hname', hcores', hchannels', hmain', harg'⟩ := hcalls
  exact ⟨hname ▸ hname', hmain ▸ hcores ▸ hcores', hchannels ▸ hchannels', hmain ▸ hmain',
    harg ▸ harg'⟩

theorem describes (h : Interleaved calls calls') (hcalls : Buildable calls)
    (ho : Describes calls o) : Describes calls' o := by
  obtain ⟨hname, hcores, hchannels, hmain, harg⟩ := h.given_eq
  refine ⟨hname ▸ ho.programName, hcores ▸ ho.cores, hmain ▸ ho.mainLcore,
    hchannels ▸ ho.memoryChannels, harg ▸ ho.passthrough, ?_⟩
  have hlength : (words (calls.filterMap Call.item?)).length =
      (words (calls'.filterMap Call.item?)).length :=
    ((h.perm.filterMap Call.item?).flatMap_right Item.words).length_eq
  rw [ho.parsedArgs, (hcalls.layout ho.programName).args,
    ((h.buildable hcalls).layout (hname ▸ ho.programName)).args]
  simp [hlength]

end Interleaved

/-- Parsing undoes building : the argument vector of a builder is accepted on every machine, as the
options that the calls describe. The options do not depend on how calls of different kinds are
interleaved. -/
theorem parse_toArgs (h : Buildable calls) (available : List Nat) :
    ∃ o, Options.parse available (ofCalls calls).toArgs = .ok o ∧ Describes calls o ∧
      ∀ calls', Interleaved calls calls' →
        Options.parse available (ofCalls calls').toArgs = .ok o := by
  obtain ⟨o, ho⟩ := h.exists_describes
  refine ⟨o, h.parse_eq_ok ho, ho, fun calls' hcalls' => ?_⟩
  exact (hcalls'.buildable h).parse_eq_ok (hcalls'.describes h ho)

/-- Calls in another order, with the same main cores in the same order, give the same options. -/
theorem parse_toArgs_mixed :
    Buildable [.memoryChannels 4, .programName "dummy", .coreList "0-2", .mainLcore 1,
      .arg "--no-huge", .mainLcore 2] ∧
    Options.parse [0] (ofCalls [.mainLcore 1, .arg "--no-huge", .coreList "0-2", .mainLcore 2,
      .memoryChannels 4, .programName "dummy"]).toArgs =
        .ok ⟨"dummy", [0, 1, 2], 2, some 4, ["--no-huge"], 10⟩ := by
  have h : Buildable [.memoryChannels 4, .programName "dummy", .coreList "0-2", .mainLcore 1,
      .arg "--no-huge", .mainLcore 2] :=
    ⟨by decide, ⟨[0, 1, 2], rfl, by decide, by decide⟩, by decide, by decide, by decide⟩
  obtain ⟨⟨name, cores, main, channels, long, count⟩, -, ⟨hname, hcores, hmain, rfl, rfl, rfl⟩,
    hmixed⟩ := parse_toArgs h [0]
  cases hname
  cases hcores
  cases hmain
  exact ⟨h, hmixed _ fun k => by cases k <;> rfl⟩

end Builder

end CoreFleet.Launch
