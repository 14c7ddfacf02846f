import CoreFleet.Fleet.Halt
import CoreFleet.Proofs.Fleet.Iteration
import CoreFleet.Proofs.Fleet.Teardown
import Mathlib.Tactic.IntervalCases

/-!
# Quiescence after a stop

A `Pause` is a fleet that somebody stops, with a limited time for its workers, while anything else
happens to it. What it does to the fleet is a run (`Pause.run`), with a request to stop in it.

The call answers what it sees in the states of the workers. What the threads do outside of the
registry follows : after the request no worker is running unless the fleet is started again, so that
a thread between the gate and its report belongs to a worker that is stopping
(`Run.Halted.stopping`). When the call finds none of these, the fleet is still (`Run.Still`), and
stays so until the next start.

`stop_quiesces` says this, and when the call answers that its time was over.
-/

namespace CoreFleet

/-! ## Stillness -/

namespace Run

variable {ρ : Run} {n i : Nat} {s s' : Slot} {p : Phase}

/-- No worker is running or stopping, and no thread is between the gate and its report. -/
structure Still (ρ : Run) (n : Nat) : Prop where
  states : ∀ i s, ρ.slot? n i = some s → s.state ≠ .running ∧ s.state ≠ .stopping
  outside : ∀ i p, ρ.phase? n i = some p → p.inside = false

/-- A fleet that has settled after a request to stop is still. -/
theorem Halted.still (h : ρ.Halted n) (hsettled : (ρ.fleet n).registry.settled = true) :
    ρ.Still n where
  states i s hs :=
    ⟨h i s hs, by simpa using List.all_eq_true.1 hsettled s (List.mem_of_getElem? hs)⟩
  outside i p hp := by
    obtain ⟨s, hhas⟩ := has_of_phase? hp
    refine Bool.eq_false_iff.2 fun hinside => ?_
    have hsome := List.all_eq_true.1 hsettled s (List.mem_of_getElem? hhas.1)
    simp [h.stopping hhas hinside] at hsome

/-- A worker that is stopping was stopping or running before. -/
theorem running_or_stopping (hs : ρ.slot? n i = some s) (hs' : ρ.slot? (n + 1) i = some s')
    (hstop : s'.state = .stopping) : s.state = .running ∨ s.state = .stopping := by
  obtain ⟨p, hhas⟩ := has_of_slot? hs
  obtain ⟨p', hhas'⟩ := has_of_slot? hs'
  cases hhas.effect hhas' with
  | operate event change =>
    rcases change.state_cases (Event.client_or_shutdown event) with
      ⟨hsame, -⟩ | ⟨-, -, -, h⟩ | ⟨-, hrun, -⟩ | ⟨-, h, -⟩
    · exact Or.inr (hsame ▸ hstop)
    · exact nomatch h.symm.trans hstop
    · exact Or.inl hrun
    · exact nomatch h.symm.trans hstop
  | settle => cases hstop
  | report => rcases Registry.finish_state s _ with h | h <;> exact nomatch h.symm.trans hstop
  | exit => cases hstop
  | _ => exact Or.inr hstop

theorem Still.halted (h : ρ.Still n) : ρ.Halted n := fun i s hs => (h.states i s hs).1

/-- A still fleet stays so until it is started. -/
theorem Still.succ (h : ρ.Still n) (hstart : ¬ρ.Starts n) : ρ.Still (n + 1) where
  states i s' hs' := by
    obtain ⟨p', hhas'⟩ := has_of_slot? hs'
    obtain ⟨s, p, hhas⟩ := hhas'.pred
    refine ⟨h.halted.succ hstart i s' hs', fun hstop => ?_⟩
    obtain ⟨hrun, hstop'⟩ := h.states i s hhas.1
    exact (running_or_stopping hhas.1 hs' hstop).elim hrun hstop'
  outside i p' hp' := by
    obtain ⟨s', hhas'⟩ := has_of_phase? hp'
    obtain ⟨s, p, hhas⟩ := hhas'.pred
    exact outside_succ hhas hhas' (h.halted.not_enters i) (h.outside i p hhas.2)

/-- No thread of a still fleet is inside an iteration. -/
theorem Still.not_iterating (h : ρ.Still n) (i : Nat) :
    (ρ.phase? n i).any Phase.iterating = false := by
  cases hp : ρ.phase? n i with
  | none => rfl
  | some p =>
    have hout := h.outside i p hp
    cases p with
    | looping loop point => cases hout
    | _ => rfl

/-- The thread of the worker at `i` executes nothing, neither its call nor its timer call is in
progress or begins, and it does not pass the gate. -/
structure Rests (ρ : Run) (n i : Nat) : Prop where
  execution : ∀ m snapshot, ¬ρ.Executes i m n snapshot
  iteration : ∀ c, ¬ρ.Iterates i c n
  check : ¬ρ.Checks n i
  call : ∀ begins, ρ.CallTimes i begins → n ∉ begins
  timer : ¬ρ.TimerBegins n i
  gate : ∀ snapshot, ¬ρ.Enters n i snapshot

/-- The threads of a still fleet rest. -/
theorem Still.rests (h : ρ.Still n) (i : Nat) : ρ.Rests n i where
  execution m snapshot hexec := by
    obtain ⟨s, p, hhas, hexecuting, -⟩ := hexec.executing
    exact nomatch (h.outside i p hhas.2).symm.trans hexecuting.runs.inside
  iteration c hiter := by
    have := hiter.2.2 n hiter.1 (Nat.le_refl n)
    simp [h.not_iterating i] at this
  check := by
    rintro ⟨loop, hp, -⟩
    exact nomatch h.outside i _ hp
  call begins hcalls hn := by
    have := iterating_of_calling (hcalls.calling n hn)
    simp [h.not_iterating i] at this
  timer htimer := by
    have := iterating_of_calling htimer.1
    simp [h.not_iterating i] at this
  gate := h.halted.not_enters i

end Run

/-! ## Fleets that are stopped -/

/-- What may happen to a fleet while somebody stops it. -/
inductive Halt.Event
  /-- Something happens to the fleet, by whoever holds the registry or by a worker's thread. -/
  | fleet (e : CoreFleet.Event)
  /-- The call makes its next step, if it need not wait. -/
  | advance (now : Nat) (woken : Bool)

/-- The fleet and where the call stands, after an event. -/
def Halt.step (f : Fleet) (call : Halt) : Halt.Event → Fleet × Halt
  | .fleet e => (f.step e, call)
  | .advance now woken => (call.step? f now woken).getD (f, call)

/-- What the next step of the call does to the fleet. A look at the registry does nothing. -/
def Halt.onFleet : Halt → CoreFleet.Event
  | ask _ => .operate .stop (.refl true)
  | _ => .operate .snapshot (.refl true)

/-- What an event does to the fleet. -/
def Halt.Event.onFleet (call : Halt) : Halt.Event → CoreFleet.Event
  | fleet e => e
  | advance .. => call.onFleet

namespace Halt

variable {f f' : Fleet} {now : Nat} {woken : Bool} {call call' : Halt}

/-- A step of the call leaves the fleet alone, or asks it to stop. -/
theorem fleet_step? (h : call.step? f now woken = some (f', call')) : f' = f.step call.onFleet := by
  cases call with
  | ask | time | look | late =>
    cases h
    rfl
  | parked =>
    simp only [step?] at h
    repeat' split at h
    all_goals cases h
    all_goals rfl
  | answered => cases h

theorem fleet_step (f : Fleet) (call : Halt) (ev : Halt.Event) :
    (step f call ev).1 = f.step (ev.onFleet call) := by
  cases ev with
  | fleet => rfl
  | advance now woken =>
    simp only [step, Event.onFleet]
    cases hstep : call.step? f now woken with
    | some c => exact fleet_step? hstep
    | none => cases call <;> first | rfl | cases hstep

/-- The call answers what it has seen, and that its time was over only at its last look. -/
theorem settled_of_answered {settled : Bool}
    (h : call.step? f now woken = some (f', answered settled)) :
    f.registry.settled = settled ∧ (settled = false → call = late) := by
  cases call with
  | look =>
    simp only [step?, Option.some.injEq, Prod.mk.injEq] at h
    obtain ⟨-, hlook⟩ := h
    split at hlook
    · next hsettled =>
      cases hlook
      exact ⟨hsettled, nofun⟩
    · cases hlook
  | late =>
    cases h
    exact ⟨rfl, fun _ => rfl⟩
  | parked =>
    simp only [step?] at h
    repeat' split at h
    all_goals cases h
  | ask | time | answered => cases h

end Halt

/-- A fleet with these workers, which is stopped at some time, and what happens to it. -/
structure Pause where
  tuning : Tuning
  lcores : List Lcore
  timeout : Nat
  schedule : Nat → Halt.Event

namespace Pause

/-- The fleet and where the call stands, after `n` events. -/
def state (π : Pause) : Nat → Fleet × Halt
  | 0 => (.ofLcores π.tuning π.lcores, .ask π.timeout)
  | n + 1 => Halt.step (π.state n).1 (π.state n).2 (π.schedule n)

/-- Where the call stands after `n` events. -/
def call (π : Pause) (n : Nat) : Halt := (π.state n).2

/-- At event `n` the call makes a step, at this reading of the clock. -/
def Advances (π : Pause) (n now : Nat) : Prop := ∃ woken, π.schedule n = .advance now woken

/-- At event `n` the call asks the workers to stop. -/
def Asks (π : Pause) (n : Nat) : Prop :=
  (∃ timeout, π.call n = .ask timeout) ∧ ∃ now, π.Advances n now

/-- At event `n` the call looks at the registry for the last time, as its time is over. -/
def GivesUp (π : Pause) (n : Nat) : Prop := π.call n = .late ∧ ∃ now, π.Advances n now

/-- The run of the fleet. -/
def run (π : Pause) : Run where
  tuning := π.tuning
  lcores := π.lcores
  schedule n := (π.schedule n).onFleet (π.call n)

variable {π : Pause} {n m : Nat}

theorem fleet_run (π : Pause) : ∀ n, π.run.fleet n = (π.state n).1
  | 0 => rfl
  | n + 1 => by
    rw [Run.fleet, π.fleet_run n]
    exact (Halt.fleet_step ..).symm

/-- The call stays where it is, or makes a step. -/
theorem call_succ (π : Pause) (n : Nat) : π.call (n + 1) = π.call n ∨
    ∃ now woken f', π.schedule n = .advance now woken ∧
      (π.call n).step? (π.run.fleet n) now woken = some (f', π.call (n + 1)) := by
  rw [fleet_run, call, call, state]
  cases hev : π.schedule n with
  | fleet e => exact Or.inl rfl
  | advance now woken =>
    cases hstep : (π.state n).2.step? (π.state n).1 now woken with
    | none => exact Or.inl (by simp [Halt.step, hstep])
    | some c => exact Or.inr ⟨now, woken, c.1, rfl, by simp [Halt.step, hstep]⟩

/-- The call has asked the workers to stop when it has begun. No worker is running since, unless the
fleet was started again, and the fleet is still when the call has found so. -/
theorem exists_asks (π : Pause) : ∀ n, (∀ timeout, π.call n ≠ .ask timeout) →
    ∃ a < n, π.Asks a ∧ ((∀ k, a < k → k < n → ¬π.run.Starts k) →
      π.run.Halted n ∧ (π.call n = .answered true → π.run.Still n))
  | 0, h => absurd rfl (h π.timeout)
  | n + 1, h => by
    rcases π.call_succ n with hsame | ⟨now, woken, f', hev, hstep⟩
    · obtain ⟨a, han, hasks, hquiet⟩ := π.exists_asks n (hsame ▸ h)
      refine ⟨a, by omega, hasks, fun hstarts => ?_⟩
      obtain ⟨hhalted, hstill⟩ := hquiet fun k hak hkn => hstarts k hak (by omega)
      have hstart := hstarts n han (Nat.lt_succ_self n)
      exact ⟨hhalted.succ hstart, fun hanswer => (hstill (hsame ▸ hanswer)).succ hstart⟩
    · by_cases hbegun : ∀ timeout, π.call n ≠ .ask timeout
      · obtain ⟨a, han, hasks, hquiet⟩ := π.exists_asks n hbegun
        refine ⟨a, by omega, hasks, fun hstarts => ?_⟩
        obtain ⟨hhalted, -⟩ := hquiet fun k hak hkn => hstarts k hak (by omega)
        have hstart := hstarts n han (Nat.lt_succ_self n)
        refine ⟨hhalted.succ hstart, fun hanswer => ?_⟩
        rw [hanswer] at hstep
        exact (hhalted.still (Halt.settled_of_answered hstep).1).succ hstart
      · obtain ⟨timeout, hask⟩ := not_forall_not.1 hbegun
        refine ⟨n, Nat.lt_succ_self n, ⟨⟨timeout, hask⟩, now, woken, hev⟩, fun _ => ⟨?_, ?_⟩⟩
        · refine Run.halted_of_stop ?_
          simp [Run.op?, run, hev, hask, Halt.Event.onFleet, Halt.onFleet, Event.operation?]
        · intro hanswer
          rw [hask, hanswer] at hstep
          cases hstep

/-- A call that has answered that its time was over has seen a worker that was stopping. -/
theorem exists_givesUp (π : Pause) : ∀ n, π.call n = .answered false →
    ∃ m < n, π.GivesUp m ∧ π.call (m + 1) = .answered false ∧ ∃ i, π.run.Stopping m i
  | 0, h => nomatch h
  | n + 1, h => by
    rcases π.call_succ n with hsame | ⟨now, woken, f', hev, hstep⟩
    · obtain ⟨m, hmn, hgives⟩ := π.exists_givesUp n (hsame ▸ h)
      exact ⟨m, by omega, hgives⟩
    · rw [h] at hstep
      obtain ⟨hsettled, hlate⟩ := Halt.settled_of_answered hstep
      obtain ⟨s, hs, hstop⟩ : ∃ s ∈ (π.run.fleet n).registry.slots, s.state = .stopping := by
        simpa [Registry.settled] using hsettled
      obtain ⟨i, hi⟩ := List.mem_iff_getElem?.1 hs
      exact ⟨n, Nat.lt_succ_self n, ⟨hlate rfl, now, woken, hev⟩, h, i, s, hi, hstop⟩

/-- The call waits with no limit, or has seen the fleet settled. -/
def Patient : Halt → Prop
  | .look deadline => deadline = none
  | .parked deadline => deadline = none
  | .answered settled => settled = true
  | _ => False

theorem patient_step? {f f' : Fleet} {now : Nat} {woken : Bool} {call call' : Halt}
    (h : Patient call) (hstep : call.step? f now woken = some (f', call')) : Patient call' := by
  cases call with
  | look deadline =>
    obtain rfl : deadline = none := h
    cases hstep
    split <;> rfl
  | parked deadline =>
    obtain rfl : deadline = none := h
    cases woken <;> cases hstep
    rfl
  | ask | time | late => exact h.elim
  | answered => cases hstep

/-- An answer is final. -/
theorem answered_of_le {settled : Bool} (h : π.call n = .answered settled) (hnm : n ≤ m) :
    π.call m = .answered settled := by
  induction hnm with
  | refl => exact h
  | step _ ih =>
    rcases π.call_succ _ with hsame | ⟨_, _, _, -, hstep⟩
    · exact hsame.trans ih
    · rw [ih] at hstep
      cases hstep

/-- A call whose deadline cannot be represented is patient. -/
theorem patient_of_time {now : Nat} (htime : π.call m = .time π.timeout) (hnow : π.Advances m now)
    (hnone : Clock.after? now π.timeout = none) (hmn : m < n) : Patient (π.call n) := by
  induction n, hmn using Nat.le_induction with
  | base =>
    obtain ⟨woken, hev⟩ := hnow
    have hnext : π.call (m + 1) = .look none := by
      simp_all [call, state, Halt.step, Halt.step?]
    exact hnext ▸ rfl
  | succ n _ ih =>
    rcases π.call_succ n with hsame | ⟨_, _, _, -, hstep⟩
    · exact hsame ▸ ih
    · exact patient_step? ih hstep

/-- A call that answers that every worker has settled has asked the workers to stop before. If no
start is let through since, then no worker is running or stopping, no thread executes a snapshot or
is inside a call or a timer call, and none begins one. This holds when the call answers, and from
then on until the fleet is started. A call that answers that its time was over has seen a worker
that was stopping when it looked for the last time. If the reading of the clock at which its time
would be over cannot be represented, the call never answers so. -/
theorem stop_quiesces (π : Pause) :
    (∀ n, π.call n = .answered true → ∃ a < n, π.Asks a ∧
      ((∀ k, a < k → k < n → ¬π.run.Starts k) → π.run.Still n ∧ ∀ i, π.run.Rests n i)) ∧
    (∀ n, π.call n = .answered false →
      ∃ m < n, π.GivesUp m ∧ π.call (m + 1) = .answered false ∧ ∃ i, π.run.Stopping m i) ∧
    ∀ m now, π.call m = .time π.timeout → π.Advances m now →
      Clock.after? now π.timeout = none → ∀ n, π.call n ≠ .answered false := by
  refine ⟨fun n hanswer => ?_, π.exists_givesUp, fun m now htime hnow hnone n hanswer => ?_⟩
  · obtain ⟨a, han, hasks, hquiet⟩ :=
      π.exists_asks n fun timeout hask => nomatch hask.symm.trans hanswer
    refine ⟨a, han, hasks, fun hstarts => ?_⟩
    have hstill := (hquiet hstarts).2 hanswer
    exact ⟨hstill, hstill.rests⟩
  · rcases Nat.lt_or_ge m n with hmn | hnm
    · have hpatient := patient_of_time htime hnow hnone hmn
      rw [hanswer] at hpatient
      cases hpatient
    · exact nomatch (answered_of_le hanswer hnm).symm.trans htime

/-! ## Two calls -/

/-- A worker is inside a call of its block when these events begin, and nothing happens after
them. -/
def ofEvents (timeout : Nat) (events : List Halt.Event) : Pause where
  tuning := {}
  lcores := [.worker 1]
  timeout
  schedule n := ([
    .fleet (.operate (.assignBlock 1 Run.rx) (.refl true)), .fleet (.operate .start (.refl true)),
    .fleet (.move 0 .look), .fleet (.move 0 (.enter 0)), .fleet (.move 0 .poll)] ++
      events)[n]?.getD (.fleet (.operate .snapshot (.refl true)))

/-- The call waits with no limit, and is woken when the worker is idle. -/
def settled : Pause := ofEvents Clock.longest [
  .advance 0 false, .advance 0 false, .advance 0 false, .fleet (.move 0 (.back .ok 0)),
  .fleet (.move 0 .poll), .fleet (.move 0 .report), .advance 0 true, .advance 0 false]

/-- The time of the call is over before the worker returns. -/
def hasty : Pause := ofEvents 5 [
  .advance 0 false, .advance 0 false, .advance 0 false, .advance 5 false, .advance 5 false]

/-- The fleet of `settled` rests when the call has its answer, and the worker of `hasty` is stopping
when the call looks for the last time. -/
theorem stop_quiesces_settled :
    settled.call 13 = .answered true ∧ settled.run.Still 13 ∧ settled.run.Rests 13 0 ∧
    settled.call 6 = .time Clock.longest ∧ settled.Advances 6 0 ∧
    Clock.after? 0 Clock.longest = none ∧ (∀ n, settled.call n ≠ .answered false) ∧
    hasty.call 10 = .answered false ∧ ∃ m < 10, hasty.GivesUp m ∧ ∃ i, hasty.run.Stopping m i := by
  obtain ⟨hanswer, -, hlimit⟩ := stop_quiesces settled
  obtain ⟨a, ha, hasks, hrests⟩ := hanswer 13 rfl
  have hstarts : ∀ k < 13, 1 < k → ¬settled.run.Starts k := by decide
  have hafter : 1 < a := by
    obtain ⟨-, now, woken, hev⟩ := hasks
    refine Nat.lt_of_not_le fun hle => ?_
    interval_cases a <;> cases hev
  obtain ⟨hstill, hrests⟩ := hrests fun k hak hk => hstarts k hk (Nat.lt_trans hafter hak)
  have hnone : Clock.after? 0 Clock.longest = none := by decide
  obtain ⟨m, hm, hgives, -, hstopping⟩ := (stop_quiesces hasty).2.1 10 rfl
  exact ⟨rfl, hstill, hrests 0, rfl, ⟨false, rfl⟩, hnone, hlimit 6 0 rfl ⟨false, rfl⟩ hnone, rfl,
    m, hm, hgives, hstopping⟩

end Pause

end CoreFleet
