import CoreFleet.Fleet.Runtime
import CoreFleet.Proofs.Executor.Service
import CoreFleet.Proofs.Fleet.Shutdown

/-!
# The teardown of a busy runtime

A `Closure` is a runtime together with an endless sequence of events : what happens to its
fleet and to its executor, and the stages of its teardown. What it does to the fleet is a
run (`Closure.run`), with a request to stop and two shutdowns in it, so that all that holds
of runs holds of its fleet.

A teardown notes which workers are stuck, shuts the registry down, and joins the threads of
the others. What it knows of the workers at each stage (`Teardown.Knows`) is kept by every
event, unless a start is let through between the request to stop and the shutdown of the
registry. So the teardown waits for no thread that is between the gate and its report
(`teardown_passes_busy_workers`).

Nothing keeps such a start away. The worker that it starts is not among the stuck ones, and
the teardown waits for its thread, however long the call takes that it is in
(`teardown_waits_overtaken`).
-/

namespace CoreFleet

variable {V Q A R : Type}

/-! ## Runtimes that are torn down -/

/-- What may happen to a runtime while it is there and while it is torn down. -/
inductive Teardown.Event (V Q A R : Type)
  /-- Something happens to the fleet, by whoever holds the registry or by a worker's thread. Only
  the teardown shuts the registry down. -/
  | fleet (e : CoreFleet.Event) (outside : e.operation? ≠ some .shutdown)
  /-- Something happens to the executor of the main core. -/
  | executor (e : Executor.Event V Q A R)
  /-- The teardown makes its next stage. `timedOut` tells that the time for the workers to stop
  is over. -/
  | advance (timedOut : Bool)

/-- The runtime and where its teardown stands, after an event. -/
def Teardown.step (rt : Runtime V Q A R) (stage : Teardown) :
    Teardown.Event V Q A R → Runtime V Q A R × Teardown
  | .fleet e _ => ({ rt with fleet := rt.fleet.step e }, stage)
  | .executor e => ({ rt with executor := rt.executor.react e }, stage)
  | .advance timedOut => (stage.step? rt timedOut).getD (rt, stage)

/-- What the next stage of the teardown does to the fleet. A look at the registry does
nothing. -/
def Teardown.onFleet : Teardown → CoreFleet.Event
  | stop => .operate .stop (.refl true)
  | close _ => .shutdown
  | reclose => .shutdown
  | _ => .operate .snapshot (.refl true)

/-- What an event does to the fleet. -/
def Teardown.Event.onFleet (stage : Teardown) : Teardown.Event V Q A R → CoreFleet.Event
  | fleet e _ => e
  | executor _ => .operate .snapshot (.refl true)
  | advance _ => stage.onFleet

/-- A stage of the teardown leaves the fleet alone, asks it to stop or shuts it down. -/
theorem Teardown.fleet_step? {rt rt' : Runtime V Q A R} {stage stage' : Teardown}
    {timedOut : Bool} (h : stage.step? rt timedOut = some (rt', stage')) :
    rt'.fleet = rt.fleet.step stage.onFleet := by
  cases stage with
  | stop | inspect | close | drain | reclose | release =>
    cases h
    rfl
  | settle | await =>
    simp only [step?] at h
    repeat' split at h
    all_goals cases h
    all_goals rfl
  | join stuck positions =>
    cases positions with
    | nil =>
      cases h
      rfl
    | cons =>
      simp only [step?] at h
      split at h
      · cases h
        rfl
      · cases h
  | done => cases h

theorem Teardown.fleet_step (rt : Runtime V Q A R) (stage : Teardown)
    (ev : Teardown.Event V Q A R) :
    (Teardown.step rt stage ev).1.fleet = rt.fleet.step (ev.onFleet stage) := by
  cases ev with
  | fleet | executor => rfl
  | advance timedOut =>
    simp only [step, Event.onFleet]
    cases hstep : stage.step? rt timedOut with
    | some c => exact fleet_step? hstep
    | none => cases stage <;> first | rfl | cases hstep

/-- A runtime with these launch options, which is torn down at some time, and what happens to
it. -/
structure Closure (V Q A R : Type) where
  tuning : Tuning
  options : Launch.Options
  schedule : Nat → Teardown.Event V Q A R

namespace Closure

/-- The runtime and where its teardown stands, after `n` events. -/
def state (χ : Closure V Q A R) : Nat → Runtime V Q A R × Teardown
  | 0 => (.ofOptions χ.tuning χ.options, .shutdown)
  | n + 1 => Teardown.step (χ.state n).1 (χ.state n).2 (χ.schedule n)

/-- The runtime after `n` events. -/
def runtime (χ : Closure V Q A R) (n : Nat) : Runtime V Q A R := (χ.state n).1

/-- Where the teardown stands after `n` events. -/
def stage (χ : Closure V Q A R) (n : Nat) : Teardown := (χ.state n).2

/-- The thread of the worker at `i` is between the gate and its report. -/
def Busy (χ : Closure V Q A R) (n i : Nat) : Prop :=
  ∃ p, (χ.runtime n).fleet.phases[i]? = some p ∧ p.inside = true

/-- At event `n` the teardown shuts the registry down, to leave these workers detached. -/
def Closes (χ : Closure V Q A R) (n : Nat) (stuck : List Nat) : Prop :=
  χ.stage n = .close stuck ∧ ∃ timedOut, χ.schedule n = .advance timedOut

/-- The run of the fleet of the runtime. -/
def run (χ : Closure V Q A R) : Run where
  tuning := χ.tuning
  lcores := χ.options.workers
  schedule n := (χ.schedule n).onFleet (χ.stage n)

theorem fleet_run (χ : Closure V Q A R) : ∀ n, χ.run.fleet n = (χ.runtime n).fleet
  | 0 => rfl
  | n + 1 => by
    rw [Run.fleet, χ.fleet_run n]
    exact (Teardown.fleet_step ..).symm

end Closure

/-! ## Workers that are busy -/

namespace Run

variable {ρ : Run} {n i : Nat} {s s' : Slot} {p p' : Phase} {stuck : List Nat}

/-- No worker is running after `n` events. -/
def Halted (ρ : Run) (n : Nat) : Prop := ∀ i s, ρ.slot? n i = some s → s.state ≠ .running

/-- Every worker whose thread is between the gate and its report is among these. -/
def BusyWithin (ρ : Run) (n : Nat) (stuck : List Nat) : Prop :=
  ∀ i p, ρ.phase? n i = some p → p.inside = true → Teardown.isStuck (ρ.fleet n) stuck i = true

/-- A request to stop leaves no worker running. -/
theorem halted_of_stop (h : ρ.op? n = some .stop) : ρ.Halted (n + 1) := by
  intro i s' hs'
  obtain ⟨p', h'⟩ := has_of_slot? hs'
  obtain ⟨s, p, h₀⟩ := h'.pred
  cases h₀.effect h' with
  | operate event change =>
    obtain rfl := Option.some.inj (h.symm.trans event)
    exact change.of_asksToStop (Or.inl rfl) rfl
  | rest quiet => exact nomatch h.symm.trans quiet
  | _ event => simp [op?, event, Event.operation?] at h

theorem Halted.succ (h : ρ.Halted n) (hstart : ¬ρ.Starts n) : ρ.Halted (n + 1) := by
  intro i s' hs' hrun
  obtain ⟨p', h'⟩ := has_of_slot? hs'
  obtain ⟨s, p, h₀⟩ := h'.pred
  exact h i s h₀.1 (running_of_not_starts h₀.1 hs' hstart hrun)

/-- The gate is closed when no worker is running. -/
theorem Halted.not_enters (h : ρ.Halted n) (i : Nat) (snapshot : Option Assignment) :
    ¬ρ.Enters n i snapshot := by
  intro henters
  obtain ⟨s, hhas, hrun, -⟩ := henters.running
  exact h i s hhas.1 hrun

/-- A busy worker was asked to stop when no worker is running. -/
theorem Halted.stopping (h : ρ.Halted n) (hhas : ρ.Has n i s p) (hp : p.inside = true) :
    s.state = .stopping := by
  obtain ⟨_, _, -, hexec⟩ := executing_of_inside hhas hp
  exact hexec.active.resolve_left (h i s hhas.1)

/-- No worker becomes busy while no thread passes the gate. -/
theorem BusyWithin.succ (h : ρ.BusyWithin n stuck)
    (henters : ∀ i snapshot, ¬ρ.Enters n i snapshot) : ρ.BusyWithin (n + 1) stuck := by
  intro i p' hp' hinside
  obtain ⟨s', h'⟩ := has_of_phase? hp'
  obtain ⟨s, p, hhas⟩ := h'.pred
  have hbusy : p.inside = true := by
    cases hout : p.inside with
    | true => rfl
    | false => exact absurd hinside (by simp [outside_succ hhas h' (henters i) hout])
  have hstuck := h i p hhas.2 hbusy
  have hslot : (ρ.fleet n).registry.slots[i]? = some s := hhas.1
  have hslot' : (ρ.fleet (n + 1)).registry.slots[i]? = some s' := h'.1
  simp only [Teardown.isStuck, hslot, Option.any_some] at hstuck
  simp only [Teardown.isStuck, hslot', Option.any_some, (hhas.effect h').lcore_eq, hstuck]

end Run

/-! ## The stages of a teardown -/

/-- The registry was asked to stop, and it is not shut down yet. -/
def Teardown.isClosing : Teardown → Bool
  | settle => true
  | inspect => true
  | close _ => true
  | _ => false

/-- What is known of the workers at a stage of the teardown. -/
def Teardown.Knows (ρ : Run) (n : Nat) : Teardown → Prop
  | settle => ρ.Halted n
  | inspect => ρ.Halted n
  | close stuck => ρ.Halted n ∧ ρ.BusyWithin n stuck
  | drain stuck => (ρ.fleet n).registry.down = true ∧ ρ.BusyWithin n stuck
  | await stuck => (ρ.fleet n).registry.down = true ∧ ρ.BusyWithin n stuck
  | join stuck _ => (ρ.fleet n).registry.down = true ∧ ρ.BusyWithin n stuck
  | _ => True

namespace Run

variable {ρ : Run} {n : Nat} {stage stage' : Teardown} {stuck : List Nat}

theorem down_succ (h : (ρ.fleet n).registry.down = true) :
    (ρ.fleet (n + 1)).registry.down = true := by
  rw [fleet, Fleet.down_step, h, Bool.true_or]

/-- What is known at a stage stays so, if no start is let through before the registry is shut
down. -/
theorem knows_succ (h : stage.Knows ρ n) (hstart : stage.isClosing = true → ¬ρ.Starts n) :
    stage.Knows ρ (n + 1) := by
  have hleft {stuck : List Nat}
      (h : (ρ.fleet n).registry.down = true ∧ ρ.BusyWithin n stuck) :
      (ρ.fleet (n + 1)).registry.down = true ∧ ρ.BusyWithin (n + 1) stuck :=
    ⟨down_succ h.1, h.2.succ fun i snapshot => not_enters_of_down h.1⟩
  cases stage with
  | settle | inspect => exact Halted.succ h (hstart rfl)
  | close stuck => exact ⟨h.1.succ (hstart rfl), h.2.succ h.1.not_enters⟩
  | drain stuck => exact hleft h
  | await stuck => exact hleft h
  | join stuck positions => exact hleft h
  | stop | reclose | release | done => trivial

/-- When no worker is running and none is stopping, none is busy. -/
theorem busyWithin_of_settled (h : ρ.Halted n) (hsettled : (ρ.fleet n).registry.settled = true) :
    ρ.BusyWithin n [] := by
  intro i p hp hinside
  obtain ⟨s, hhas⟩ := has_of_phase? hp
  have hstop := h.stopping hhas hinside
  have hnot := List.all_eq_true.1 hsettled s (List.mem_of_getElem? hhas.1)
  simp [hstop] at hnot

/-- When no worker is running, the busy ones are stopping. -/
theorem busyWithin_of_halted (h : ρ.Halted n) {rt : Runtime V Q A R} (hrt : ρ.fleet n = rt.fleet) :
    ρ.BusyWithin n rt.stuck := by
  intro i p hp hinside
  obtain ⟨s, hhas⟩ := has_of_phase? hp
  have hstop := h.stopping hhas hinside
  have hslot : (ρ.fleet n).registry.slots[i]? = some s := hhas.1
  simp only [Teardown.isStuck, hslot, Option.any_some, List.contains_iff_mem, Runtime.stuck,
    ← hrt]
  exact List.mem_map_of_mem (List.mem_filter.2 ⟨List.mem_of_getElem? hslot, by simpa using hstop⟩)

/-- What is known at a stage when the teardown comes to it. -/
theorem knows_step? {rt rt' : Runtime V Q A R} {timedOut : Bool} (h : stage.Knows ρ n)
    (hrt : ρ.fleet n = rt.fleet) (hev : ρ.schedule n = stage.onFleet)
    (hstep : stage.step? rt timedOut = some (rt', stage')) : stage'.Knows ρ (n + 1) := by
  have hquiet (hop : stage.onFleet = .operate .snapshot rfl) (hknows : stage'.Knows ρ n) :
      stage'.Knows ρ (n + 1) := by
    refine knows_succ hknows fun _ hstart => ?_
    simp [Starts, Fleet.Opens, hev, hop, CoreFleet.Event.operation?] at hstart
  cases stage with
  | stop =>
    obtain ⟨-, rfl⟩ := Prod.mk.inj (Option.some.inj hstep)
    exact halted_of_stop (by rw [op?, hev]; rfl)
  | settle =>
    simp only [Teardown.step?] at hstep
    split at hstep
    · next hsettled =>
      obtain ⟨-, rfl⟩ := Prod.mk.inj (Option.some.inj hstep)
      exact hquiet rfl ⟨h, busyWithin_of_settled h (hrt ▸ hsettled)⟩
    · split at hstep
      · obtain ⟨-, rfl⟩ := Prod.mk.inj (Option.some.inj hstep)
        exact hquiet rfl h
      · cases hstep
  | inspect =>
    obtain ⟨-, rfl⟩ := Prod.mk.inj (Option.some.inj hstep)
    exact hquiet rfl ⟨h, busyWithin_of_halted h hrt⟩
  | close stuck =>
    obtain ⟨-, rfl⟩ := Prod.mk.inj (Option.some.inj hstep)
    exact ⟨down_of_shutdown (by rw [op?, hev]; rfl) (Nat.lt_succ_self n), h.2.succ h.1.not_enters⟩
  | drain stuck =>
    obtain ⟨-, rfl⟩ := Prod.mk.inj (Option.some.inj hstep)
    refine hquiet rfl ?_
    split <;> exact h
  | await stuck =>
    simp only [Teardown.step?] at hstep
    split at hstep
    · obtain ⟨-, rfl⟩ := Prod.mk.inj (Option.some.inj hstep)
      exact hquiet rfl h
    · cases hstep
  | join stuck positions =>
    cases positions with
    | nil =>
      obtain ⟨-, rfl⟩ := Prod.mk.inj (Option.some.inj hstep)
      trivial
    | cons i rest =>
      simp only [Teardown.step?] at hstep
      split at hstep
      · obtain ⟨-, rfl⟩ := Prod.mk.inj (Option.some.inj hstep)
        exact hquiet rfl h
      · cases hstep
  | reclose | release =>
    obtain ⟨-, rfl⟩ := Prod.mk.inj (Option.some.inj hstep)
    trivial
  | done => cases hstep

end Run

namespace Closure

variable {χ : Closure V Q A R}

/-- What is known at a stage holds throughout a teardown during which no start is let through
between the request to stop and the shutdown of the registry. -/
theorem knows (hquiet : ∀ n, (χ.stage n).isClosing = true → ¬χ.run.Starts n) : ∀ n,
    (χ.stage n).Knows χ.run n
  | 0 => trivial
  | n + 1 => by
    have ih := knows hquiet n
    have hstay : χ.stage (n + 1) = χ.stage n → (χ.stage (n + 1)).Knows χ.run (n + 1) := fun hsame =>
      hsame ▸ Run.knows_succ ih (hquiet n)
    cases hev : χ.schedule n with
    | fleet | executor => exact hstay (by simp [stage, state, hev, Teardown.step])
    | advance timedOut =>
      cases hstep : (χ.stage n).step? (χ.runtime n) timedOut with
      | none => exact hstay (by simp_all [stage, runtime, state, Teardown.step])
      | some c =>
        have hnext : χ.stage (n + 1) = c.2 := by
          simp_all [stage, runtime, state, Teardown.step]
        rw [hnext]
        exact Run.knows_step? ih (χ.fleet_run n) (by simp [run, hev, Teardown.Event.onFleet]) hstep

theorem Busy.phase? {n i : Nat} (h : χ.Busy n i) :
    ∃ p, χ.run.phase? n i = some p ∧ p.inside = true := by
  obtain ⟨p, hp, hinside⟩ := h
  exact ⟨p, by rw [Run.phase?, χ.fleet_run n, hp], hinside⟩

/-- If no start is let through between the request to stop and the shutdown of the registry, a
worker that is busy when the registry is shut down is among those left detached, and the
teardown waits for the thread of no busy worker : it passes over it. -/
theorem teardown_passes_busy_workers (χ : Closure V Q A R)
    (hquiet : ∀ n, (χ.stage n).isClosing = true → ¬χ.run.Starts n) :
    (∀ n i stuck, χ.Closes n stuck → χ.Busy n i →
      Teardown.isStuck (χ.runtime n).fleet stuck i = true) ∧
    ∀ n i stuck rest timedOut, χ.stage n = .join stuck (i :: rest) → χ.Busy n i →
      (χ.stage n).step? (χ.runtime n) timedOut = some (χ.runtime n, .join stuck rest) := by
  refine ⟨fun n i stuck hcloses hbusy => ?_, fun n i stuck rest timedOut hjoin hbusy => ?_⟩
  · obtain ⟨p, hp, hinside⟩ := hbusy.phase?
    have hknows := knows hquiet n
    rw [hcloses.1] at hknows
    rw [← χ.fleet_run n]
    exact hknows.2 i p hp hinside
  · obtain ⟨p, hp, hinside⟩ := hbusy.phase?
    have hknows := knows hquiet n
    rw [hjoin] at hknows
    have hstuck := hknows.2 i p hp hinside
    rw [χ.fleet_run n] at hstuck
    simp [hjoin, Teardown.step?, hstuck]

/-! ## Two teardowns -/

/-- A runtime with one worker, to which these events happen, and nothing any more after them. -/
def ofEvents (events : List (Teardown.Event Nat Unit Nat Nat)) : Closure Nat Unit Nat Nat where
  tuning := {}
  options := ⟨"fleet", [0, 1], 0, none, [], 1⟩
  schedule n := events[n]?.getD (.executor .pause)

theorem not_starts_ofEvents {events : List (Teardown.Event Nat Unit Nat Nat)} {n : Nat}
    (h : events.length ≤ n) : ¬(ofEvents events).run.Starts n := by
  rintro ⟨hop, -⟩
  have hnone : events[n]? = none := List.getElem?_eq_none h
  simp [run, ofEvents, hnone, Teardown.Event.onFleet, CoreFleet.Event.operation?] at hop

/-- The worker does not return from the call it is in, and the time for it to stop is over. -/
def timedOut : Closure Nat Unit Nat Nat := ofEvents [
  .fleet (.operate (.assignBlock 1 Run.rx) (.refl true)) nofun,
  .fleet (.operate .start (.refl true)) nofun, .fleet (.move 0 .look) nofun,
  .fleet (.move 0 (.enter 0)) nofun, .fleet (.move 0 .poll) nofun,
  .advance false, .advance true, .advance false, .advance false, .advance false,
  .executor .step, .advance false]

/-- The worker is idle when it is asked to stop, and is started by somebody else before the
registry is shut down. -/
def overtaken : Closure Nat Unit Nat Nat := ofEvents [
  .fleet (.operate (.assignBlock 1 Run.rx) (.refl true)) nofun, .advance false, .advance false,
  .fleet (.operate .start (.refl true)) nofun,
  .fleet (.move 0 .look) nofun, .fleet (.move 0 (.enter 0)) nofun, .fleet (.move 0 .poll) nofun,
  .advance false, .advance false, .executor .step, .advance false]

/-- In `timedOut` the worker that is busy is left detached. -/
theorem teardown_passes_busy_workers_timedOut :
    timedOut.Closes 8 [1] ∧ timedOut.Busy 8 0 ∧
    Teardown.isStuck (timedOut.runtime 8).fleet [1] 0 = true ∧
    timedOut.stage 12 = .join [1] [0] ∧ timedOut.Busy 12 0 ∧
    (timedOut.stage 12).step? (timedOut.runtime 12) false =
      some (timedOut.runtime 12, .join [1] []) := by
  have hquiet : ∀ n, (timedOut.stage n).isClosing = true → ¬timedOut.run.Starts n := by
    have hsmall : ∀ n < 12, (timedOut.stage n).isClosing = true → ¬timedOut.run.Starts n := by
      decide
    intro n hclosing
    rcases Nat.lt_or_ge n 12 with hlt | hge
    · exact hsmall n hlt hclosing
    · exact not_starts_ofEvents hge
  obtain ⟨hcloses, hjoin⟩ := teardown_passes_busy_workers timedOut hquiet
  have hbusy : timedOut.Busy 8 0 := ⟨.looping (.block Run.rx) .call, rfl, rfl⟩
  have hbusy' : timedOut.Busy 12 0 := ⟨.looping (.block Run.rx) .call, rfl, rfl⟩
  exact ⟨⟨rfl, _, rfl⟩, hbusy, hcloses 8 0 [1] ⟨rfl, _, rfl⟩ hbusy, rfl, hbusy',
    hjoin 12 0 [1] [] false rfl hbusy'⟩

/-- In `overtaken` the worker is busy when the registry is shut down and is not left detached,
and the teardown waits for the call it is in. -/
theorem teardown_waits_overtaken :
    overtaken.Closes 7 [] ∧ overtaken.Busy 7 0 ∧
    Teardown.isStuck (overtaken.runtime 7).fleet [] 0 = false ∧
    overtaken.stage 11 = .join [] [0] ∧
    (overtaken.runtime 11).fleet.phases[0]? = some (.looping (.block Run.rx) .call) ∧
    ∀ timedOut, (overtaken.stage 11).step? (overtaken.runtime 11) timedOut = none :=
  ⟨⟨rfl, _, rfl⟩, ⟨.looping (.block Run.rx) .call, rfl, rfl⟩, rfl, rfl, rfl, fun _ => rfl⟩

end Closure

end CoreFleet
