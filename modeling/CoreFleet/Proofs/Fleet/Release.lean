import CoreFleet.Proofs.Fleet.Containment

/-!
# Pipelines that are released

A pipeline belongs to somebody outside the fleet. The registry refers to it without holding it, and
only the run loop of an execution holds it, from the upgrade on with which it begins. So after its
owner has let go of it, a pipeline is there as long as a run loop runs it.

No two workers execute one pipeline at a time (`executions_exclusive`). Hence the loop that runs a
pipeline is never another one than that which tries to upgrade it, and an upgrade succeeds exactly
as long as the owner holds the pipeline (`alive_of_begins`). `released_for_good` derives from this
how the executions of a released pipeline end, and that the pipeline outlives its release in one
execution only, which had begun before.
-/

namespace CoreFleet

namespace Fleet

variable {f : Fleet} {i : Nat} {e : Event} {u : UnitId}

/-- Its owner lets go of a pipeline, and nobody takes it back. -/
theorem mem_released_step : u ∈ (f.step e).released ↔ u ∈ f.released ∨ e = .release u := by
  cases e with
  | operate | shutdown => simp [step, operate]
  | release v => simp [step, release, or_comm, eq_comm]
  | move k m =>
    have hsame : (f.step (.move k m)).released = f.released := by
      cases hm : f.move k m with
      | none => simp [step, hm]
      | some g =>
        simp only [step, hm, Option.getD_some]
        unfold move at hm
        split at hm
        case h_8 => simp at hm
        all_goals
          obtain rfl := Option.some.inj hm
          rfl
    simp [hsame]

theorem alive_iff : f.alive u = true ↔ u ∉ f.released ∨
    ∃ (j : Nat) (loop : Loop) (point : Point),
      f.phases[j]? = some (.looping loop point) ∧ loop.unit? = some u := by
  simp only [alive, Bool.or_eq_true, Bool.not_eq_true', List.contains_eq_mem,
    decide_eq_false_iff_not, List.any_eq_true, beq_iff_eq]
  refine or_congr Iff.rfl ⟨?_, ?_⟩
  · rintro ⟨p, hp, hunit⟩
    obtain ⟨j, hj⟩ := List.mem_iff_getElem?.1 hp
    cases p with
    | looping loop point => exact ⟨j, loop, point, hj, hunit⟩
    | _ => cases hunit
  · rintro ⟨j, loop, point, hj, hunit⟩
    exact ⟨_, List.mem_of_getElem? hj, hunit⟩

end Fleet

namespace Run

variable {ρ : Run} {e i m n r t now : Nat} {u : UnitId} {ref : PipelineRef} {p : Phase}

/-- The owner of a pipeline has let go of it before event `n`. -/
def Released (ρ : Run) (n : Nat) (u : UnitId) : Prop := ∃ r, r < n ∧ ρ.schedule r = .release u

/-- The instance is a pipeline. It is not handed out as a block as well, which would be a handle
that its owner has not let go of. -/
def PipelineOnly (ρ : Run) (u : UnitId) : Prop :=
  ∀ n id b, ρ.op? n = some (.assignBlock id b) → b.id ≠ u

/-! ## How executions of a pipeline end -/

/-- At event `e` the upgrade of the pipeline succeeds, and the loop of worker `i` begins. -/
def Upgraded (ρ : Run) (e i : Nat) (ref : PipelineRef) : Prop :=
  ∃ gate, ρ.phase? (e + 1) i = some (.looping (.pipeline ref gate) .check)

/-- At event `e` the upgrade of the pipeline fails, and ends the loop of worker `i`. -/
def FindsReleased (ρ : Run) (e i : Nat) (ref : PipelineRef) : Prop :=
  ρ.phase? (e + 1) i = some (.finishing (some ("pipeline " ++ ref.name ++ " was released")))

/-- The owner of the pipeline has let go of it when the execution on worker `i` tries to upgrade
it. -/
def UpgradesReleased (ρ : Run) (i m n : Nat) (ref : PipelineRef) : Prop :=
  ∃ e now, m < e ∧ e < n ∧ ρ.Begins e i (some (.pipeline ref)) now ∧ ρ.Released e ref.id

/-- The execution on worker `i` makes no call to its unit, nor to the timer of it. -/
def Uncalled (ρ : Run) (i m n : Nat) : Prop :=
  ∀ outcome, .call outcome ∉ ρ.trace i m n ∧ .timer outcome ∉ ρ.trace i m n

/-- The report at event `n` on the execution of a released pipeline leaves worker `i` failed with
the text for this, or idle if the pipeline was cleared during the execution. -/
def LeavesReleased (ρ : Run) (i m n : Nat) (ref : PipelineRef) : Prop :=
  ∃ s', ρ.slot? (n + 1) i = some s' ∧
    ((∃ c, m < c ∧ c < n ∧ ρ.Clears c i) ∧
        s'.state = .idle ∧ s'.assignment = none ∧ s'.error = none ∨
      (∀ c, m < c → c < n → ¬ρ.Clears c i) ∧
        s'.Blames (.pipeline ref) ("pipeline " ++ ref.name ++ " was released"))

/-- One execution is in its loop for the pipeline from event `r` to event `n`. -/
def RunThroughout (ρ : Run) (r n : Nat) (u : UnitId) : Prop :=
  ∃ j m ref, ref.id = u ∧ ∀ t, r ≤ t → t ≤ n → ρ.Executes j m t (some (.pipeline ref)) ∧
    ∃ gate point, ρ.phase? t j = some (.looping (.pipeline ref gate) point)

/-! ## Upgrades -/

theorem mem_released : ∀ {n : Nat}, u ∈ (ρ.fleet n).released ↔ ρ.Released n u
  | 0 => ⟨nofun, fun ⟨_, hr, _⟩ => absurd hr (Nat.not_lt_zero _)⟩
  | n + 1 => by
    rw [fleet, Fleet.mem_released_step, mem_released]
    constructor
    · rintro (⟨r, hr, event⟩ | event)
      · exact ⟨r, Nat.lt_succ_of_lt hr, event⟩
      · exact ⟨n, Nat.lt_succ_self n, event⟩
    · rintro ⟨r, hr, event⟩
      rcases Nat.lt_succ_iff_lt_or_eq.1 hr with hlt | rfl
      · exact Or.inl ⟨r, hlt, event⟩
      · exact Or.inr event

/-- A pipeline that was released is there only as long as a run loop runs it. -/
theorem exists_looping_of_alive (hplain : ρ.PipelineOnly u) (hreleased : ρ.Released n u)
    (halive : (ρ.fleet n).alive u = true) : ∃ j ref gate point, ref.id = u ∧
      ρ.phase? n j = some (.looping (.pipeline ref gate) point) := by
  obtain ⟨j, loop, point, hp, hunit⟩ :=
    (Fleet.alive_iff.1 halive).resolve_left (not_not_intro (mem_released.2 hreleased))
  cases loop with
  | pipeline ref gate => exact ⟨j, ref, gate, point, Option.some.inj hunit, hp⟩
  | block b =>
    obtain ⟨m, hexec⟩ := executes_of_looping (ρ := ρ) hp
    obtain ⟨k, op, id, -, event, hgives⟩ := Executes.exists_gives hexec
    cases op with
    | assignBlock id' b' =>
      obtain ⟨-, rfl⟩ : _ ∧ b' = b := by simpa [Operation.gives] using hgives
      exact absurd (Option.some.inj hunit) (hplain k id' b' event)
    | assignPipeline => simp [Operation.gives] at hgives
    | _ => cases hgives
  | idle => cases hunit

/-- An upgrade succeeds as long as the owner holds the pipeline. No other loop can be running it. -/
theorem alive_of_begins (hplain : ρ.PipelineOnly ref.id)
    (hbegins : ρ.Begins e i (some (.pipeline ref)) now) :
    (ρ.fleet e).alive ref.id = true ↔ ¬ρ.Released e ref.id := by
  refine ⟨fun halive hreleased => ?_, fun hheld =>
    Fleet.alive_iff.2 (Or.inl fun hmem => hheld (mem_released.1 hmem))⟩
  obtain ⟨j, own, gate, point, hid, hp⟩ := exists_looping_of_alive hplain hreleased halive
  obtain ⟨m, hexec⟩ := executes_of_looping hp
  obtain ⟨s, hhas⟩ := has_of_phase? hbegins.1
  obtain ⟨m', a, hexec', hcoupled⟩ := executing_of_inside hhas rfl
  obtain rfl : a = some (.pipeline ref) := by cases hcoupled.runs with | entering => rfl
  by_cases hij : i = j
  · subst hij
    exact nomatch hp.symm.trans hbegins.1
  · refine (ρ.executions_exclusive e).1 i j m' m _ _ hij hexec' hexec ?_
    simp [Assignment.key, Assignment.isPipeline, Assignment.unitId, hid]

/-- The upgrade of a pipeline that is gone ends the loop before it makes a call. -/
theorem Begins.findsReleased (hplain : ρ.PipelineOnly ref.id)
    (hbegins : ρ.Begins e i (some (.pipeline ref)) now) (hreleased : ρ.Released e ref.id) :
    ρ.FindsReleased e i ref := by
  have hgone : ¬(ρ.fleet e).alive ref.id = true := fun halive =>
    (alive_of_begins hplain hbegins).1 halive hreleased
  simp only [FindsReleased, hbegins.phase?, Loop.enter, if_neg hgone, PipelineRef.releasedText]

theorem Begins.upgraded (hplain : ρ.PipelineOnly ref.id)
    (hbegins : ρ.Begins e i (some (.pipeline ref)) now) (hheld : ¬ρ.Released e ref.id) :
    ρ.Upgraded e i ref := by
  simp only [Upgraded, hbegins.phase?, Loop.enter,
    if_pos ((alive_of_begins hplain hbegins).2 hheld)]
  exact ⟨_, rfl⟩

/-- An execution of a pipeline whose owner has let go of it does nothing, and reports so. -/
theorem Executes.of_released (hplain : ρ.PipelineOnly ref.id)
    (h : ρ.Executes i m n (some (.pipeline ref))) (hreleased : ρ.UpgradesReleased i m n ref) :
    ρ.trace i m n = [] ∧
      ρ.phase? n i = some (.finishing (some ("pipeline " ++ ref.name ++ " was released"))) := by
  obtain ⟨e, now, hme, hen, hbegins, hreleased⟩ := hreleased
  obtain ⟨htrace, hp⟩ :=
    h.finished (Nat.lt_succ_of_lt hme) hen (hbegins.findsReleased hplain hreleased)
  rw [htrace]
  exact ⟨(h.of_le hme (Nat.le_of_lt hen)).trace_of_begins hbegins, hp⟩

/-- An execution of a pipeline that fails without a call to it could not upgrade it. -/
theorem Executes.upgradesReleased_of_uncalled (hplain : ρ.PipelineOnly ref.id)
    (h : ρ.Executes i m n (some (.pipeline ref))) {reason : String}
    (hp : ρ.phase? n i = some (.finishing (some reason)))
    (hcalls : ρ.Uncalled i m n) : ρ.UpgradesReleased i m n ref := by
  rcases h.begun with ⟨hp', -⟩ | ⟨e, now, hme, hen, hbegins, -⟩
  · exact nomatch hp.symm.trans hp'
  · refine ⟨e, now, hme, hen, hbegins, by_contra fun hheld => ?_⟩
    have hup : ρ.Upgrades i m n := by
      intro e' own now' hme' hen' hbegins'
      obtain rfl := h.begins_unique hbegins hme hen hbegins' hme' hen'
      obtain rfl : ref = own := by simpa using hbegins.1.symm.trans hbegins'.1
      exact (alive_of_begins hplain hbegins).2 hheld
    obtain ⟨-, -, -, -, hover, -⟩ := h.ordered hup hp
    obtain ⟨x, hx, hends⟩ := (hover (some reason)).1 rfl
    have hmem := List.mem_of_getLast? hx
    cases hends with
    | called => exact (hcalls _).1 hmem
    | timed => exact (hcalls _).2 hmem

/-- A pipeline that is there after its release is run by an execution that was running it then. -/
theorem runThroughout_of_alive (hplain : ρ.PipelineOnly u) (hrelease : ρ.schedule r = .release u)
    (hrn : r < n) (halive : (ρ.fleet n).alive u = true) : ρ.RunThroughout r n u := by
  obtain ⟨j, ref, gate, point, rfl, hp⟩ :=
    exists_looping_of_alive hplain ⟨r, hrn, hrelease⟩ halive
  obtain ⟨m, h⟩ := executes_of_looping hp
  have h : ρ.Executes j m n (some (.pipeline ref)) := h
  rcases h.begun with ⟨hp', -⟩ | ⟨e, now, hme, hen, hbegins, -⟩
  · exact nomatch hp.symm.trans hp'
  · have her : e < r := by
      rcases Nat.lt_trichotomy e r with hlt | rfl | hlt
      · exact hlt
      · exact nomatch hrelease.symm.trans hbegins.2
      · have hgone := h.of_released hplain ⟨e, now, hme, hen, hbegins, r, hlt, hrelease⟩
        exact nomatch hp.symm.trans hgone.2
    refine ⟨j, m, ref, rfl, fun t hrt htn => ?_⟩
    have het := Nat.lt_of_lt_of_le her hrt
    have hthen := h.of_le (Nat.lt_trans hme het) htn
    obtain ⟨s, p, hhas, hexec, -⟩ := hthen.executing
    refine ⟨hthen, ?_⟩
    have hmt := Nat.lt_trans hme het
    -- The loop has begun before the release, and is not over, since it still runs at event `n`.
    cases hexec.runs with
    | entering => exact absurd hhas.2 (hthen.not_entering hbegins hme het)
    | @looping loop point same =>
      cases loop with
      | pipeline own gate =>
        obtain rfl : own = ref := by simpa [Loop.assignment?] using same
        exact ⟨gate, point, hhas.2⟩
      | block | idle => cases same
    | ended | failed => exact nomatch hp.symm.trans (h.finished hmt htn hhas.2).2

/-- A pipeline is there for the fleet as long as its owner holds it, and after that in the execution
alone that was running it. An execution ends with the text of a released pipeline, and without a
call to it, exactly if the owner had let go of the pipeline when the execution tried to upgrade it.
Then the worker has failed with this text, or is idle if the pipeline was cleared during the
execution. A pipeline that is there after its release has been run ever since by one execution that
had begun before, and one that is gone does not come back. -/
theorem released_for_good (ρ : Run) {u : UnitId} (hplain : ρ.PipelineOnly u) :
    (∀ e i ref now, ref.id = u → ρ.Begins e i (some (.pipeline ref)) now →
      ((ρ.fleet e).alive u = true ↔ ¬ρ.Released e u) ∧
      (ρ.Released e u → ρ.FindsReleased e i ref) ∧ (¬ρ.Released e u → ρ.Upgraded e i ref)) ∧
    (∀ i m n ref failure, ref.id = u → ρ.Executes i m n (some (.pipeline ref)) →
      ρ.Reports n i failure →
      (failure = some ("pipeline " ++ ref.name ++ " was released") ∧ ρ.Uncalled i m n ↔
        ρ.UpgradesReleased i m n ref) ∧
      (ρ.UpgradesReleased i m n ref → ρ.LeavesReleased i m n ref)) ∧
    (∀ r n, ρ.schedule r = .release u → r < n → (ρ.fleet n).alive u = true →
      ρ.RunThroughout r n u) ∧
    ∀ n n', ρ.Released n u → n ≤ n' → (ρ.fleet n).alive u = false →
      (ρ.fleet n').alive u = false := by
  refine ⟨?_, ?_, fun r n hrelease => runThroughout_of_alive hplain hrelease, ?_⟩
  · rintro e i ref now rfl hbegins
    exact ⟨alive_of_begins hplain hbegins, hbegins.findsReleased hplain, hbegins.upgraded hplain⟩
  · rintro i m n ref failure rfl h hreports
    have hfails (hreleased : ρ.UpgradesReleased i m n ref) :
        failure = some ("pipeline " ++ ref.name ++ " was released") := by
      simpa [(h.of_released hplain hreleased).2] using hreports.1.symm
    refine ⟨⟨?_, fun hreleased => ⟨hfails hreleased, ?_⟩⟩, fun hreleased => ?_⟩
    · rintro ⟨rfl, hcalls⟩
      exact h.upgradesReleased_of_uncalled hplain hreports.1 hcalls
    · simp [Uncalled, (h.of_released hplain hreleased).1]
    · obtain rfl := hfails hreleased
      exact h.report_cases hreports
  · rintro n n' ⟨r, hrn, hrelease⟩ hnn' hgone
    refine Bool.eq_false_iff.2 fun halive => ?_
    obtain ⟨j, m, ref, rfl, hruns⟩ :=
      runThroughout_of_alive hplain hrelease (Nat.lt_of_lt_of_le hrn hnn') halive
    obtain ⟨-, gate, point, hp⟩ := hruns n (Nat.le_of_lt hrn) hnn'
    exact nomatch hgone.symm.trans (Fleet.alive_iff.2 (Or.inr ⟨j, _, point, hp, rfl⟩))

/-- A worker loses its pipeline while its loop runs it. The pipeline is given to another worker, and
its owner lets go of it before the first loop is over and the second worker is started. -/
def lastHandle : Run := .ofEvents [.worker 1, .worker 2] [
  .operate (.assignPipeline 1 filter 1) (.refl true), .operate .start (.refl true), .move 0 .look,
  .move 1 .look, .move 0 (.enter 0), .move 0 .poll, .operate (.clearPipeline 1) (.refl true),
  .move 1 (.enter 0), .operate .stop (.refl true), .move 1 .poll, .move 1 .report,
  .operate (.assignPipeline 2 filter 1) (.refl true), .release 3, .move 0 (.back .ok 0),
  .move 0 .poll, .move 0 .report, .operate .start (.refl true), .move 1 .look, .move 1 (.enter 0),
  .move 1 .report]

theorem pipelineOnly_lastHandle : lastHandle.PipelineOnly 3 := by
  have hgives (n : Nat) :
      (lastHandle.op? n).all (fun op => op.gives.all fun given => given.2.isPipeline) = true := by
    rcases Nat.lt_or_ge n 20 with hn | hn
    · exact (by decide : ∀ n < 20, (lastHandle.op? n).all
        (fun op => op.gives.all fun given => given.2.isPipeline) = true) n hn
    · have hquiet : lastHandle.op? n = some .snapshot := by
        simp [op?, lastHandle, ofEvents, hn, Event.operation?]
      rw [hquiet]
      rfl
  intro n id b event
  have := hgives n
  rw [event] at this
  cases this

/-- In `lastHandle` the pipeline is there until the report at event 15, in the loop of the first
worker alone. The execution of the second worker ends with its upgrade at event 18. -/
theorem released_for_good_lastHandle :
    lastHandle.PipelineOnly 3 ∧ lastHandle.schedule 12 = .release 3 ∧
    (lastHandle.fleet 14).alive 3 = true ∧ lastHandle.RunThroughout 12 14 3 ∧
    (lastHandle.fleet 16).alive 3 = false ∧ (lastHandle.fleet 20).alive 3 = false ∧
    lastHandle.Executes 1 17 19 (some (.pipeline (.of filter 1))) ∧
    lastHandle.Begins 18 1 (some (.pipeline (.of filter 1))) 0 ∧ lastHandle.Released 18 3 ∧
    lastHandle.FindsReleased 18 1 (.of filter 1) ∧
    lastHandle.Reports 19 1 (some "pipeline filter was released") ∧ lastHandle.Uncalled 1 17 19 ∧
    ∃ s', lastHandle.slot? 20 1 = some s' ∧
      s'.Blames (.pipeline (.of filter 1)) "pipeline filter was released" := by
  have hexec : lastHandle.Executes 1 17 19 (some (.pipeline (.of filter 1))) :=
    executes_of_phases (by decide) ⟨rfl, rfl⟩ (by decide)
  have hbegins : lastHandle.Begins 18 1 (some (.pipeline (.of filter 1))) 0 := ⟨rfl, rfl⟩
  have hreleased : lastHandle.Released 18 3 := ⟨12, by decide, rfl⟩
  have hupgrades : lastHandle.UpgradesReleased 1 17 19 (.of filter 1) :=
    ⟨18, 0, by decide, by decide, hbegins, hreleased⟩
  have hreports : lastHandle.Reports 19 1 (some "pipeline filter was released") := ⟨rfl, rfl⟩
  have hgone : (lastHandle.fleet 16).alive 3 = false := by decide
  have hkept : ¬∃ c, 17 < c ∧ c < 19 ∧ lastHandle.Clears c 1 := by
    rintro ⟨c, h17, h19, op, event, -⟩
    obtain rfl : c = 18 := by omega
    cases event
  obtain ⟨hupgrade, hends, houtlives, hfinal⟩ :=
    released_for_good lastHandle pipelineOnly_lastHandle
  obtain ⟨-, hfinds, -⟩ := hupgrade 18 1 _ 0 rfl hbegins
  obtain ⟨hiff, hleaves⟩ := hends 1 17 19 _ _ rfl hexec hreports
  obtain ⟨s', hs', hcases⟩ := hleaves hupgrades
  exact ⟨pipelineOnly_lastHandle, rfl, by decide, houtlives 12 14 rfl (by decide) (by decide),
    hgone, hfinal 16 20 ⟨12, by decide, rfl⟩ (by decide) hgone, hexec, hbegins, hreleased,
    hfinds hreleased, hreports, (hiff.2 hupgrades).2, s', hs',
    (hcases.resolve_left fun hcleared => hkept hcleared.1).2⟩

end Run

end CoreFleet
