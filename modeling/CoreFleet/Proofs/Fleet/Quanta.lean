import CoreFleet.Proofs.Config.Meaning
import CoreFleet.Proofs.Fleet.Timer

/-!
# The quanta of a call

Every call of a pipeline receives the quanta of the tuning as it stands, and every loop looks at its
timer with the interval of the tuning, or with one for zero (`gated`). A tuning is `Built` by
setters, which keep both of them from being zero, or it is read from a document, which enters what
it is given.

So the interval of a loop is never zero, and neither is the quanta of a call if the tuning was
built. A document that gives zero for the quanta is the one exception (`quanta_received`) : it is
accepted, and every call receives zero (`zero_quanta_received`).
-/

namespace CoreFleet

/-! ## How a tuning is made -/

/-- The tuning is the default one, changed by setters. -/
inductive Tuning.Built : Tuning → Prop
  | default : Built {}
  | withPipelineQuanta {t : Tuning} (h : Built t) (n : Nat) : Built (t.withPipelineQuanta n)
  | withControlInterval {t : Tuning} (h : Built t) (n : Nat) : Built (t.withControlInterval n)
  | withIdlePoll {t : Tuning} (h : Built t) (us : Nat) : Built (t.withIdlePoll us)

/-- Whatever the setters are given, neither the quanta nor the interval is zero. -/
theorem Tuning.Built.pos {t : Tuning} (h : t.Built) :
    1 ≤ t.pipelineQuanta ∧ 1 ≤ t.controlInterval := by
  induction h with
  | default => decide
  | withPipelineQuanta _ n ih => exact ⟨Nat.le_max_right n 1, ih.2⟩
  | withControlInterval _ n ih => exact ⟨ih.1, Nat.le_max_right n 1⟩
  | withIdlePoll _ _ ih => exact ih

namespace Config

open Json

variable {v : Value} {text : String} {c : Config}

/-- What a document gives for the quanta. -/
def quantaOf (v : Value) : Option Value :=
  (v.given? (keysOf columns) "threads").bind fun w =>
    w.given? (keysOf tuningColumns) "pipeline_quanta"

/-- The quanta of an accepted document is the number that is given, or a thousand. -/
theorem given_pipelineQuanta (hdoc : Document v text.toList) (hc : ofJson text = .ok c) :
    Given (IsNatural Numeral.wordBound) 1000 (quantaOf v) c.tuning.pipelineQuanta := by
  have hthreads : Given (Describes tuningColumns {}) {} (v.given? (keysOf columns) "threads")
      c.tuning := ((ofJson_eq_ok_iff hdoc).1 hc).given _ (.tail _ (.head _))
  unfold quantaOf
  cases hw : v.given? (keysOf columns) "threads" with
  | none =>
    rw [hw] at hthreads
    have hdefault : c.tuning = {} := hthreads
    rw [hdefault]
    rfl
  | some w =>
    rw [hw] at hthreads
    exact hthreads.given _ (.head _)

/-- The quanta of an accepted document is zero just if this is what is given. -/
theorem pipelineQuanta_eq_zero_iff (hdoc : Document v text.toList) (hc : ofJson text = .ok c) :
    c.tuning.pipelineQuanta = 0 ↔ ∃ x, quantaOf v = some x ∧ IsNatural Numeral.wordBound x 0 := by
  have hgiven := given_pipelineQuanta hdoc hc
  constructor
  · intro hzero
    rw [hzero] at hgiven
    cases hx : quantaOf v with
    | none =>
      rw [hx] at hgiven
      cases hgiven
    | some x => exact ⟨x, rfl, by rwa [hx] at hgiven⟩
  · rintro ⟨x, hx, ds, rfl, hzero, -⟩
    rw [hx] at hgiven
    obtain ⟨ds', heq, hn, -⟩ := hgiven
    cases heq
    rw [hn, ← hzero]

end Config

/-! ## The interval of a loop -/

/-- The thread is in no loop of a pipeline, or in one that looks at its timer with this interval. -/
def Phase.Gated (interval : Nat) : Phase → Prop
  | .looping (.pipeline _ gate) _ => gate.interval = interval
  | _ => True

/-- A loop keeps the interval with which it began. -/
theorem Fleet.Effect.gated {f : Fleet} {i : Nat} {e : Event} {s s' : Slot} {p p' : Phase}
    (he : f.Effect i e s p s' p') (h : p.Gated (max f.tuning.controlInterval 1)) :
    p'.Gated (max f.tuning.controlInterval 1) := by
  cases he with
  | rest | operate => exact h
  | close | pass | settle | report | exit => trivial
  | enter =>
    unfold Loop.enter
    repeat' split
    all_goals first | rfl | trivial
  | @poll loop =>
    unfold Loop.poll
    split
    · cases loop <;> exact h
    · trivial
  | @called loop outcome =>
    unfold Loop.afterCall
    cases loop with
    | idle => trivial
    | block => cases outcome.failure <;> trivial
    | pipeline => cases outcome.failure <;> first | exact h | trivial
  | @timed loop reading now outcome =>
    unfold Loop.afterTimer
    cases loop with
    | idle | block => cases outcome.failure <;> trivial
    | pipeline => cases outcome.failure <;> first | exact h | trivial

namespace Run

open Json Config

variable {ρ : Run} {n i quanta : Nat}

/-! ## What calls receive -/

/-- After `n` events the thread of the worker at `i` is inside a call of a pipeline, which has
received this quanta. -/
def Receives (ρ : Run) (n i quanta : Nat) : Prop :=
  ∃ loop, ρ.phase? n i = some (.looping loop .call) ∧
    loop.quanta? (ρ.fleet n).tuning = some quanta

/-- A call receives the quanta of the tuning as it stands. -/
theorem Receives.eq (h : ρ.Receives n i quanta) : quanta = ρ.tuning.pipelineQuanta := by
  obtain ⟨loop, -, hquanta⟩ := h
  rw [tuning_fleet] at hquanta
  cases loop with
  | pipeline => exact (Option.some.inj hquanta).symm
  | block | idle => cases hquanta

/-- Every loop of a run looks at its timer with the same interval. -/
theorem gated (ρ : Run) (i : Nat) : ∀ n s p, ρ.Has n i s p → p.Gated ρ.interval := by
  refine worker_induction (fun _ => trivial) fun n s p s' p' _ _ he ih => ?_
  have hkeeps := he.gated (p := p)
  rw [tuning_fleet] at hkeeps
  exact hkeeps ih

/-- Whatever happens to a fleet, every call of a pipeline receives the quanta of its tuning, and the
interval at which a loop looks at its timer is that of the tuning, or one if this is zero. So the
interval is at least one however the tuning was made. If setters made it, the quanta is at least
one, too, whatever they were given. If it was read from a document, then the quanta is the number
that the document gives, or a thousand : it is at least one unless the document gives zero, and
then every call receives zero. -/
theorem quanta_received (ρ : Run) :
    (∀ n i quanta, ρ.Receives n i quanta → quanta = ρ.tuning.pipelineQuanta) ∧
    (∀ n i ref gate point, ρ.phase? n i = some (.looping (.pipeline ref gate) point) →
      1 ≤ gate.interval ∧ gate.interval = max ρ.tuning.controlInterval 1) ∧
    (ρ.tuning.Built → 1 ≤ ρ.tuning.controlInterval ∧
      ∀ n i quanta, ρ.Receives n i quanta → 1 ≤ quanta) ∧
    ∀ text c, ofJson text = .ok c → ρ.tuning = c.tuning → (∃ v, Document v text.toList) ∧
      ∀ v, Document v text.toList →
        Given (IsNatural Numeral.wordBound) 1000 (quantaOf v) ρ.tuning.pipelineQuanta ∧
        ((∀ x, quantaOf v = some x → ¬IsNatural Numeral.wordBound x 0) →
          ∀ n i quanta, ρ.Receives n i quanta → 1 ≤ quanta) ∧
        ((∃ x, quantaOf v = some x ∧ IsNatural Numeral.wordBound x 0) →
          ∀ n i quanta, ρ.Receives n i quanta → quanta = 0) := by
  refine ⟨fun n i quanta h => h.eq, fun n i ref gate point hp => ?_, fun hbuilt => ?_,
    fun text c hc htuning => ⟨exists_document takes_reader hc, fun v hdoc => ?_⟩⟩
  · obtain ⟨s, hhas⟩ := has_of_phase? hp
    have hinterval : gate.interval = ρ.interval := gated ρ i n s _ hhas
    exact ⟨hinterval ▸ ρ.interval_pos, hinterval⟩
  · exact ⟨hbuilt.pos.2, fun n i quanta h => h.eq ▸ hbuilt.pos.1⟩
  · have hzero := pipelineQuanta_eq_zero_iff hdoc hc
    rw [← htuning] at hzero
    refine ⟨htuning ▸ given_pipelineQuanta hdoc hc, fun hnot n i quanta h => ?_,
      fun hgiven n i quanta h => h.eq.trans (hzero.2 hgiven)⟩
    rw [h.eq]
    exact Nat.one_le_iff_ne_zero.2 fun h0 =>
      let ⟨x, hx, hnatural⟩ := hzero.1 h0
      hnot x hx hnatural

/-- A worker is started with a pipeline, and calls it. -/
def calling (tuning : Tuning) : Run :=
  { ofEvents [.worker 1] [.operate (.assignPipeline 1 filter 0) (.refl true),
      .operate .start (.refl true), .move 0 .look, .move 0 (.enter 0), .move 0 .poll] with tuning }

theorem receives_calling (tuning : Tuning) :
    (calling tuning).Receives 5 0 tuning.pipelineQuanta := ⟨_, rfl, rfl⟩

/-- The document `{"threads":{"pipeline_quanta":64,"control_interval":0}}`. -/
def sixtyFour : String :=
  "\x7b\"threads\":\x7b\"pipeline_quanta\":64,\"control_interval\":0\x7d\x7d"

/-- If setters are given zero for both, the call receives one. A document may give 64 for the
quanta, which the call receives, and zero for the interval, for which the loop takes one. -/
theorem quanta_received_sixtyFour :
    let zeros := (({} : Tuning).withPipelineQuanta 0).withControlInterval 0
    (zeros.Built ∧ (calling zeros).Receives 5 0 1 ∧ 1 ≤ zeros.controlInterval ∧
      ∀ n i quanta, (calling zeros).Receives n i quanta → 1 ≤ quanta) ∧
    ∃ v c, Document v sixtyFour.toList ∧ ofJson sixtyFour = .ok c ∧ c.tuning.controlInterval = 0 ∧
      (calling c.tuning).Receives 5 0 64 ∧
      (∀ n i quanta, (calling c.tuning).Receives n i quanta → 1 ≤ quanta) ∧
      ∃ ref gate, (calling c.tuning).phase? 5 0 = some (.looping (.pipeline ref gate) .call) ∧
        gate.interval = 1 := by
  intro zeros
  have hbuilt : zeros.Built := .withControlInterval (.withPipelineQuanta .default 0) 0
  obtain ⟨-, -, hsetters, -⟩ := quanta_received (calling zeros)
  obtain ⟨hinterval, hquanta⟩ := hsetters hbuilt
  refine ⟨⟨hbuilt, receives_calling zeros, hinterval, hquanta⟩, ?_⟩
  have hnil : Spaces [] := nofun
  have hkey : Plain "pipeline_quanta".toList ∧ Plain "control_interval".toList ∧
      Plain "threads".toList := by decide
  have hsixtyFour : Number.Whole [6, 4] ['6', '4'] := ⟨⟨nofun, by decide, rfl⟩, nofun⟩
  have hzero : Number.Whole [0] ['0'] := ⟨⟨nofun, by decide, rfl⟩, fun _ => rfl⟩
  have hsection := Spells.members hnil (hkey.1.spells_member (.number hnil hsixtyFour.spells))
    (.nextMember hnil (hkey.2.1.spells_member (.number hnil hzero.spells)) (.endMembers hnil))
  have hdoc : Document (.mapping [(some "threads", .mapping
        [(some "pipeline_quanta", .number ⟨false, [6, 4], [], none⟩),
          (some "control_interval", .number ⟨false, [0], [], none⟩)])]) sixtyFour.toList :=
    ⟨_, [], rfl, .members hnil (hkey.2.2.spells_member hsection) (.endMembers hnil), hnil⟩
  have hc : ofJson sixtyFour =
      .ok { tuning := { pipelineQuanta := 64, controlInterval := 0 } } := rfl
  obtain ⟨-, hgate, -, hdocument⟩ :=
    quanta_received (calling { pipelineQuanta := 64, controlInterval := 0 })
  obtain ⟨-, hpositive, -⟩ := (hdocument _ _ hc rfl).2 _ hdoc
  refine ⟨_, _, hdoc, hc, rfl, receives_calling _, hpositive ?_, _, _, rfl, (hgate 5 0 _ _ _ rfl).2⟩
  rintro x hx ⟨ds, rfl, hds, -⟩
  cases hx
  exact absurd hds (by decide)

/-- The document `{"threads":{"pipeline_quanta":0}}`. -/
def zeroQuanta : String := "\x7b\"threads\":\x7b\"pipeline_quanta\":0\x7d\x7d"

/-- A document that gives zero for the quanta is accepted, and a call receives zero, though a setter
that is given zero makes one of it. -/
theorem zero_quanta_received : ∃ v c, Document v zeroQuanta.toList ∧ ofJson zeroQuanta = .ok c ∧
    (calling c.tuning).Receives 5 0 0 ∧
    (calling (({} : Tuning).withPipelineQuanta 0)).Receives 5 0 1 := by
  have hnil : Spaces [] := nofun
  have hkey : Plain "pipeline_quanta".toList ∧ Plain "threads".toList := by decide
  have hzero : Number.Whole [0] ['0'] := ⟨⟨nofun, by decide, rfl⟩, fun _ => rfl⟩
  have hsection := Spells.members hnil (hkey.1.spells_member (.number hnil hzero.spells))
    (.endMembers hnil)
  exact ⟨_, { tuning := { pipelineQuanta := 0 } }, ⟨_, [], rfl,
    .members hnil (hkey.2.spells_member hsection) (.endMembers hnil), hnil⟩, rfl,
    receives_calling _, receives_calling _⟩

end Run

end CoreFleet
