import CoreFleet.Proofs.Fleet.Start
import Mathlib.Data.Set.Subsingleton
import Mathlib.Order.Interval.Set.Defs

/-!
# Iterations of a run loop

An iteration is what a run loop does from a check that finds its flag up (`Checks`) until it
comes back to the check or ends : one call of its unit and, for a pipeline, at most one timer
call after it. A loop reads its flag without the lock of the registry, so that a request to
stop may fall between the check and the call.

A run tells when a thread checks its flag and when a call returns. Where in between the call
begins it does not tell : `CallTimes` is any choice of these moments, of which nothing is
assumed but that a thread makes one call at a time.

`stop_observed` says how long a worker goes on that is asked to stop. Since nothing lifts its
flag again, no further check finds it up, and the iteration whose check came before the request
is the only one to which a call or a timer call can belong.
-/

namespace CoreFleet

/-! ## Positions inside an iteration -/

namespace Phase

/-- The thread has found its flag up, and the call of the unit has not returned. -/
def calling : Phase → Bool
  | looping _ .call => true
  | _ => false

/-- The thread has found the timer due, and the timer call has not returned. -/
def timing : Phase → Bool
  | looping _ (.timer _) => true
  | _ => false

/-- The thread is inside an iteration. -/
def iterating (p : Phase) : Bool := p.calling || p.timing

theorem timing_of_calling {p : Phase} (h : p.calling = true) : p.timing = false := by
  unfold calling at h
  split at h
  · rfl
  · cases h

end Phase

section Loop

variable (loop : Loop) (outcome : Outcome)

theorem Loop.iterating_enter (tuning : Tuning) (alive : UnitId → Bool) (now : Nat)
    (snapshot : Option Assignment) :
    (Loop.enter tuning alive now snapshot).iterating = false := by
  unfold Loop.enter
  repeat' split
  all_goals rfl

/-- A call is followed by a timer call, or ends the iteration. -/
theorem Loop.calling_afterCall (now : Nat) : (loop.afterCall outcome now).calling = false := by
  unfold Loop.afterCall
  cases loop with
  | idle => rfl
  | block b => cases outcome.failure <;> rfl
  | pipeline ref gate =>
    cases outcome.failure with
    | none => cases hdue : gate.tick.looks && gate.tick.isDue now <;> simp [hdue, Phase.calling]
    | some reason => rfl

/-- A timer call ends the iteration. -/
theorem Loop.iterating_afterTimer (reading : Nat) :
    (loop.afterTimer outcome reading).iterating = false := by
  unfold Loop.afterTimer
  cases outcome.failure <;> cases loop <;> rfl

end Loop

/-- A thread inside an iteration was inside before and has not gone back from the timer to the
call, or it has just found its flag up. -/
theorem Fleet.Effect.iterating {f : Fleet} {i : Nat} {e : Event} {s s' : Slot} {p p' : Phase}
    (he : f.Effect i e s p s' p') (h : p'.iterating = true) :
    p.iterating = true ∧ (p'.calling = true → p.calling = true) ∨
      ∃ loop, p = .looping loop .check ∧ p' = .looping loop .call ∧ s.flag = true ∧ s' = s := by
  cases he with
  | rest | operate => exact Or.inl ⟨h, id⟩
  | close | pass | settle | report | exit => cases h
  | enter => simp [Loop.iterating_enter] at h
  | @poll loop =>
    cases hflag : s.flag with
    | true => exact Or.inr ⟨loop, rfl, by simp [Loop.poll], rfl, rfl⟩
    | false => simp [Loop.poll, hflag, Phase.iterating, Phase.calling, Phase.timing] at h
  | called => exact Or.inl ⟨rfl, by simp [Loop.calling_afterCall]⟩
  | timed => simp [Loop.iterating_afterTimer] at h

namespace Run

variable {ρ : Run} {c c' n t t' u i : Nat} {s : Slot} {p : Phase}

/-! ## Iterations of a run -/

/-- At event `n` the thread of the worker at `i` finds its flag up, and begins an iteration. -/
def Checks (ρ : Run) (n i : Nat) : Prop :=
  ∃ loop, ρ.phase? n i = some (.looping loop .check) ∧
    ρ.phase? (n + 1) i = some (.looping loop .call)

/-- After `n` events the thread of the worker at `i` is inside the iteration that it began at
event `c`. -/
def Iterates (ρ : Run) (i c n : Nat) : Prop :=
  c < n ∧ ρ.Checks c i ∧ ∀ t, c < t → t ≤ n → (ρ.phase? t i).any Phase.iterating = true

/-- At event `n` a call of the worker at `i` returns, and its thread goes on to the timer. -/
def TimerBegins (ρ : Run) (n i : Nat) : Prop :=
  (ρ.phase? n i).any Phase.calling = true ∧ (ρ.phase? (n + 1) i).any Phase.timing = true

/-- At these times, as counts of events, the calls of the worker at `i` begin : after a check
has found the flag up, and not before the last call has returned. -/
structure CallTimes (ρ : Run) (i : Nat) (begins : Set Nat) : Prop where
  calling : ∀ t ∈ begins, (ρ.phase? t i).any Phase.calling = true
  returned : ∀ t ∈ begins, ∀ t' ∈ begins, t < t' →
    ∃ k, t < k ∧ k ≤ t' ∧ (ρ.phase? k i).any Phase.calling = false

/-- The worker at `i` has been asked to stop and has not left this state after `n` events. -/
def Stopping (ρ : Run) (n i : Nat) : Prop := ∃ s, ρ.slot? n i = some s ∧ s.state = .stopping

theorem Stopping.not_running (h : ρ.Stopping n i) : ¬ρ.Running n i := by
  rintro ⟨s, hs, hrun⟩
  obtain ⟨s', hs', hstop⟩ := h
  obtain rfl := Option.some.inj (hs.symm.trans hs')
  exact nomatch hrun.symm.trans hstop

theorem iterating_of_calling (h : (ρ.phase? n i).any Phase.calling = true) :
    (ρ.phase? n i).any Phase.iterating = true := by
  cases hp : ρ.phase? n i <;> simp_all [Phase.iterating]

/-- A check finds the flag up only if the worker is running, before and after it. -/
theorem Checks.running (h : ρ.Checks n i) : ρ.Running n i ∧ ρ.Running (n + 1) i := by
  obtain ⟨loop, hp, hp'⟩ := h
  obtain ⟨s, hhas⟩ := has_of_phase? hp
  obtain ⟨s', hhas'⟩ := has_of_phase? hp'
  rcases (hhas.effect hhas').iterating rfl with ⟨hcheck, -⟩ | ⟨_, -, -, hflag, rfl⟩
  · cases hcheck
  · obtain ⟨_, _, -, hexec⟩ := executing_of_inside hhas rfl
    have hrun : s'.state = .running := by simpa [hflag] using hexec.flag
    exact ⟨⟨s', hhas.1, hrun⟩, s', hhas'.1, hrun⟩

/-- A thread inside an iteration began it at some event. -/
theorem exists_iterates (ρ : Run) (i : Nat) : ∀ n s p, ρ.Has n i s p → p.iterating = true →
    ∃ c, ρ.Iterates i c n := by
  refine worker_induction nofun ?_
  intro n s p s' p' h h' he ih hiter
  have hnow : (ρ.phase? (n + 1) i).any Phase.iterating = true := by simp [h'.2, hiter]
  rcases he.iterating hiter with ⟨hbefore, -⟩ | ⟨loop, rfl, rfl, -⟩
  · obtain ⟨c, hcn, hcheck, hall⟩ := ih hbefore
    refine ⟨c, by omega, hcheck, fun t hct htn => ?_⟩
    rcases Nat.le_succ_iff.1 htn with hle | rfl
    · exact hall t hct hle
    · exact hnow
  · refine ⟨n, Nat.lt_succ_self n, ⟨loop, h.2, h'.2⟩, fun t hnt htn => ?_⟩
    obtain rfl : t = n + 1 := by omega
    exact hnow

theorem exists_iterates_of_iterating (h : (ρ.phase? n i).any Phase.iterating = true) :
    ∃ c, ρ.Iterates i c n := by
  cases hp : ρ.phase? n i with
  | none => simp [hp] at h
  | some p =>
    obtain ⟨s, hhas⟩ := has_of_phase? hp
    exact exists_iterates ρ i n s p hhas (by simpa [hp] using h)

/-- Within an iteration no call follows the timer : as long as a call is in progress, it is the
first and only one. -/
theorem Iterates.calling (h : ρ.Iterates i c u) (hct : c < t) (htn : t ≤ n) (hnu : n ≤ u)
    (hcall : (ρ.phase? n i).any Phase.calling = true) :
    (ρ.phase? t i).any Phase.calling = true := by
  induction htn with
  | refl => exact hcall
  | @step n htn ih =>
    refine ih (by omega) ?_
    have hiter := h.2.2 n (Nat.lt_of_lt_of_le hct htn) (by omega)
    cases hp : ρ.phase? n i with
    | none => simp [hp] at hiter
    | some p =>
      obtain ⟨s, hhas⟩ := has_of_phase? hp
      obtain ⟨s', p', hhas'⟩ := hhas.succ
      have hcall' : p'.calling = true := by simpa [hhas'.2] using hcall
      rcases (hhas.effect hhas').iterating (by simp [Phase.iterating, hcall']) with
        ⟨-, hback⟩ | ⟨_, rfl, -⟩
      · simpa using hback hcall'
      · simp [hp, Phase.iterating, Phase.calling, Phase.timing] at hiter

/-- A check that comes after the beginning of an iteration does not come before its end. -/
theorem Iterates.not_checks (h : ρ.Iterates i c n) (hct : c < t) (htn : t ≤ n) :
    ¬ρ.Checks t i := by
  rintro ⟨loop, hp, -⟩
  have := h.2.2 t hct htn
  simp [hp, Phase.iterating, Phase.calling, Phase.timing] at this

/-! ## The request to stop -/

/-- A worker that goes from running to stopping was asked to. -/
theorem asksToStop_of_stopping (h : ρ.Running n i) (h' : ρ.Stopping (n + 1) i) :
    ρ.AsksToStop n i := by
  obtain ⟨s, hs, hrun⟩ := h
  obtain ⟨s', hs', hstop⟩ := h'
  obtain ⟨p, hhas⟩ := has_of_slot? hs
  obtain ⟨p', hhas'⟩ := has_of_slot? hs'
  cases hhas.effect hhas' with
  | operate event change =>
    rcases change.state_cases (Event.client_or_shutdown event) with
      ⟨hsame, -⟩ | ⟨-, -, -, h⟩ | ⟨hasks, -⟩ | ⟨-, h, -⟩
    · exact nomatch (hsame.symm.trans hstop).symm.trans hrun
    · exact nomatch h.symm.trans hstop
    · exact ⟨_, event, hasks⟩
    · exact nomatch h.symm.trans hstop
  | settle => cases hstop
  | report => rcases Registry.finish_state s _ with h | h <;> exact nomatch h.symm.trans hstop
  | exit => cases hstop
  | _ => exact nomatch hrun.symm.trans hstop

section Window

variable (hstop : ∀ t, n < t → t ≤ u → ρ.Stopping t i)

include hstop

/-- While a worker is stopping, no check finds its flag up. -/
theorem not_checks_of_stopping (hnt : n ≤ t) (htu : t < u) : ¬ρ.Checks t i := fun hcheck =>
  (hstop (t + 1) (by omega) (by omega)).not_running hcheck.running.2

/-- The iteration in which a stopping worker is, began before the request. -/
theorem Iterates.lt_of_stopping (h : ρ.Iterates i c t) (htu : t ≤ u) : c < n :=
  Nat.lt_of_not_le fun hnc =>
    not_checks_of_stopping hstop hnc (Nat.lt_of_lt_of_le h.1 htu) h.2.1

/-- A worker that is stopping is in one and the same iteration all the time. -/
theorem Iterates.unique_of_stopping (h : ρ.Iterates i c t) (ht : t ∈ Set.Ioc n u)
    (h' : ρ.Iterates i c' t') (ht' : t' ∈ Set.Ioc n u) : c = c' := by
  have hcn := h.lt_of_stopping hstop ht.2
  have hcn' := h'.lt_of_stopping hstop ht'.2
  rcases Nat.lt_trichotomy c c' with hlt | heq | hlt
  · exact absurd h'.2.1 (h.not_checks hlt (Nat.le_of_lt (Nat.lt_trans hcn' ht.1)))
  · exact heq
  · exact absurd h.2.1 (h'.not_checks hlt (Nat.le_of_lt (Nat.lt_trans hcn ht'.1)))

/-- While a worker is stopping, a call that is in progress at one time has been in progress
since the request. -/
theorem calling_of_stopping (hnt : n < t) (htt' : t ≤ t') (htu' : t' ≤ u)
    (hcall : (ρ.phase? t' i).any Phase.calling = true) :
    (ρ.phase? t i).any Phase.calling = true := by
  obtain ⟨c, h⟩ := exists_iterates_of_iterating (iterating_of_calling hcall)
  have hcn := h.lt_of_stopping hstop htu'
  exact h.calling (Nat.lt_trans hcn hnt) htt' (Nat.le_refl t') hcall

/-- While a worker is stopping, at most one call of it begins. -/
theorem CallTimes.subsingleton {begins : Set Nat} (h : ρ.CallTimes i begins) :
    (begins ∩ Set.Ioc n u).Subsingleton := by
  have hle {t t' : Nat} (ht : t ∈ begins ∩ Set.Ioc n u) (ht' : t' ∈ begins ∩ Set.Ioc n u) :
      t' ≤ t := by
    refine Nat.le_of_not_lt fun hlt => ?_
    obtain ⟨k, htk, hkt', hback⟩ := h.returned t ht.1 t' ht'.1 hlt
    have hcall := h.calling t' ht'.1
    have := calling_of_stopping hstop (Nat.lt_trans ht.2.1 htk) hkt' ht'.2.2 hcall
    simp [this] at hback
  exact fun t ht t' ht' => Nat.le_antisymm (hle ht' ht) (hle ht ht')

/-- While a worker is stopping, at most one timer call of it begins. -/
theorem timerBegins_subsingleton : ({t | ρ.TimerBegins t i} ∩ Set.Ico n u).Subsingleton := by
  have hle {t t' : Nat} (ht : t ∈ {t | ρ.TimerBegins t i} ∩ Set.Ico n u)
      (ht' : t' ∈ {t | ρ.TimerBegins t i} ∩ Set.Ico n u) : t' ≤ t := by
    refine Nat.le_of_not_lt fun hlt => ?_
    have hnt : n < t + 1 := Nat.lt_succ_of_le ht.2.1
    have hcall := calling_of_stopping hstop hnt hlt (Nat.le_of_lt ht'.2.2) ht'.1.1
    have htime := ht.1.2
    cases hp : ρ.phase? (t + 1) i with
    | none => simp [hp] at hcall
    | some p => simp_all [Phase.timing_of_calling]
  exact fun t ht t' ht' => Nat.le_antisymm (hle ht' ht) (hle ht ht')

end Window

/-- A worker that is asked to stop begins at most one more iteration, and only if its thread has
checked the flag before the request. From the request on until the worker leaves the state of
stopping, whatever anybody does in between, no check finds the flag up, all that the loop does
belongs to one iteration that was checked before, and of this at most one call of the unit and at
most one timer call begin. -/
theorem stop_observed (ρ : Run) {n u i : Nat} (hrun : ρ.Running n i) (hnu : n < u)
    (hstop : ∀ t, n < t → t ≤ u → ρ.Stopping t i) :
    ρ.AsksToStop n i ∧
    (∀ t ∈ Set.Ico n u, ¬ρ.Checks t i) ∧
    (∀ t ∈ Set.Ioc n u, ∀ c, ρ.Iterates i c t → c < n) ∧
    {c | ∃ t ∈ Set.Ioc n u, ρ.Iterates i c t}.Subsingleton ∧
    (∀ begins, ρ.CallTimes i begins → (begins ∩ Set.Ioc n u).Subsingleton) ∧
    ({t | ρ.TimerBegins t i} ∩ Set.Ico n u).Subsingleton := by
  refine ⟨asksToStop_of_stopping hrun (hstop (n + 1) (Nat.lt_succ_self n) hnu), ?_, ?_, ?_, ?_, ?_⟩
  · exact fun t ht => not_checks_of_stopping hstop ht.1 ht.2
  · exact fun t ht c h => h.lt_of_stopping hstop ht.2
  · rintro c ⟨t, ht, h⟩ c' ⟨t', ht', h'⟩
    exact h.unique_of_stopping hstop ht h' ht'
  · exact fun begins h => h.subsingleton hstop
  · exact timerBegins_subsingleton hstop

/-- A pipeline. -/
def filter : Pipeline := ⟨3, "filter"⟩

/-- A worker with a pipeline is asked to stop between the check of its flag and the call. Somebody
tries in vain to start the fleet before the call, and again before the timer call that follows. -/
def lateCall : Run where
  tuning := { controlInterval := 1 }
  lcores := [.worker 1]
  schedule n := ([
    .operate (.assignPipeline 1 filter 1) (.refl true), .operate .start (.refl true), .move 0 .look,
    .move 0 (.enter 0), .move 0 .poll, .operate .stop (.refl true), .operate .start (.refl true),
    .move 0 (.back .ok 5000000), .operate .start (.refl true), .move 0 (.back .ok 0), .move 0 .poll,
    .move 0 .report] : List Event)[n]?.getD (.operate .snapshot (.refl true))

/-- In `lateCall` the one call and the one timer call begin after the request, which is event 5,
in the iteration that event 4 began. -/
theorem stop_observed_lateCall :
    lateCall.Running 5 0 ∧ (∀ t, 5 < t → t ≤ 11 → lateCall.Stopping t 0) ∧
    lateCall.AsksToStop 5 0 ∧ lateCall.Checks 4 0 ∧ (∀ t ∈ Set.Ico 5 11, ¬lateCall.Checks t 0) ∧
    lateCall.Iterates 0 4 9 ∧ {c | ∃ t ∈ Set.Ioc 5 11, lateCall.Iterates 0 c t}.Subsingleton ∧
    lateCall.CallTimes 0 {7} ∧ (({7} : Set Nat) ∩ Set.Ioc 5 11).Subsingleton ∧
    lateCall.TimerBegins 7 0 ∧ ({t | lateCall.TimerBegins t 0} ∩ Set.Ico 5 11).Subsingleton := by
  have hrun : lateCall.Running 5 0 := ⟨_, rfl, rfl⟩
  have hstop : ∀ t, 5 < t → t ≤ 11 → lateCall.Stopping t 0 := by
    intro t h5 h11
    obtain rfl | rfl | rfl | rfl | rfl | rfl : t = 6 ∨ t = 7 ∨ t = 8 ∨ t = 9 ∨ t = 10 ∨ t = 11 := by
      omega
    all_goals exact ⟨_, rfl, rfl⟩
  have hcheck : lateCall.Checks 4 0 := ⟨_, rfl, rfl⟩
  have hiter : lateCall.Iterates 0 4 9 := by
    refine ⟨by decide, hcheck, fun t h4 h9 => ?_⟩
    obtain rfl | rfl | rfl | rfl | rfl : t = 5 ∨ t = 6 ∨ t = 7 ∨ t = 8 ∨ t = 9 := by omega
    all_goals rfl
  have hcalls : lateCall.CallTimes 0 {7} := by
    refine ⟨fun t ht => ?_, fun t ht t' ht' hlt => ?_⟩
    · obtain rfl := Set.mem_singleton_iff.1 ht
      rfl
    · exact absurd (ht.trans ht'.symm) (Nat.ne_of_lt hlt)
  obtain ⟨hasks, hnone, -, hone, honce, htimer⟩ :=
    stop_observed lateCall hrun (by decide) hstop
  exact ⟨hrun, hstop, hasks, hcheck, hnone, hiter, hone, hcalls, honce {7} hcalls, ⟨rfl, rfl⟩,
    htimer⟩

end Run

end CoreFleet
