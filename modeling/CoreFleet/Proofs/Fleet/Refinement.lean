import CoreFleet.Proofs.Fleet.Disposal

/-!
# A disposal is a teardown

`Disposal` is finer than `Teardown`. The wait for the fleet to settle is a call with looks at the
registry in it, the executor is stopped in two steps, the threads are those of the handles that the
runtime holds, and the drop at the end is once more the whole sequence.

Seen from a teardown, several stages of a disposal are one (`Disposal.teardown`). Each event of a
runtime that is shut down is then an event of a runtime that is torn down, with the same effect
(`Disposal.step_teardown`). So the course of a shutdown is a closure (`exists_closure`), and what
holds of every teardown holds of it.
-/

namespace CoreFleet

variable {V Q A R : Type}

namespace Disposal

/-- The stage of a teardown in which the disposal is. -/
def teardown (d : Disposal) : Teardown :=
  match d.stage with
  | .halt (.ask _) => .stop
  | .halt (.answered true) => .close []
  | .halt (.answered false) => .inspect
  | .halt _ => .settle
  | .inspect => .inspect
  | .close (.shutdown stuck) => .close stuck
  | .hangUp (.shutdown stuck) | .takeHandle (.shutdown stuck) => .drain stuck
  | .await (.shutdown stuck) => .await stuck
  | .join (.shutdown stuck) => .join stuck (d.handles.map Prod.snd)
  | .close .drop => .reclose
  | .hangUp .drop | .takeHandle .drop | .await .drop | .join .drop | .release => .release
  | .done => .done

/-- The event of a teardown that a step of the disposal is. -/
def teardownStep (d d' : Disposal) : Teardown.Event V Q A R :=
  if d'.teardown = d.teardown then .executor d.stage.onExecutor
  else .advance (d.stage = .halt .late)

/-- The event of a teardown that an event is. -/
def Event.teardown (rt : Runtime V Q A R) (d : Disposal) : Event V Q A R → Teardown.Event V Q A R
  | fleet e outside => .fleet e outside
  | executor ev => .executor ev
  | advance now woken => match d.step? rt now woken with
    | some (_, d') => d.teardownStep d'
    | none => .executor .pause

/-- What a disposal that is finer than a teardown relies on. -/
structure Refines (rt : Runtime V Q A R) (d : Disposal) : Prop where
  hungUp : ∀ stuck, d.stage = .takeHandle (.shutdown stuck) → rt.executor.accepting = false
  /-- No thread has been waited for before all are. -/
  all : ∀ stuck, d.stage = .takeHandle (.shutdown stuck) ∨ d.stage = .await (.shutdown stuck) →
    d.handles.map Prod.snd = List.range rt.fleet.phases.length
  ids : ∀ id i, (id, i) ∈ d.handles →
    ∃ s, rt.fleet.registry.slots[i]? = some s ∧ s.lcore.id = id

variable {rt : Runtime V Q A R} {d d' : Disposal}

/-- After the sender of the queue is taken away, the executor is stopped by taking the handle. -/
theorem close_eq_takeHandle {e : Executor V Q A R} (h : e.accepting = false) :
    e.close = e.takeHandle := by
  rw [Executor.close, Executor.takeHandle, h]

/-- A step that a teardown does not see leaves the fleet alone. -/
theorem step_of_eq (heq : d'.teardown = d.teardown)
    (hfleet : rt.fleet.step d.stage.onFleet = rt.fleet) :
    Teardown.step rt d.teardown (d.teardownStep d') = (d.proceed rt, d'.teardown) := by
  rw [teardownStep, if_pos heq, heq]
  simp only [Teardown.step, proceed, hfleet]

/-- A step that a teardown makes too. -/
theorem step_of_ne (hne : d'.teardown ≠ d.teardown)
    (hstep : d.teardown.step? rt (d.stage = .halt .late) = some (d.proceed rt, d'.teardown)) :
    Teardown.step rt d.teardown (d.teardownStep d') = (d.proceed rt, d'.teardown) := by
  rw [teardownStep, if_neg hne]
  simp only [Teardown.step, hstep, Option.getD_some]

/-- A step of the call that stops the fleet, as a teardown sees it. -/
theorem step_halt {hs : List (Nat × Nat)} {up : Bool} {call call' : Halt} {fleet : Fleet}
    {now : Nat} {woken : Bool} (goes : call.step? rt.fleet now woken = some (fleet, call')) :
    Teardown.step rt (teardown ⟨hs, up, .halt call⟩)
      (teardownStep ⟨hs, up, .halt call⟩ ⟨hs, up, .halt call'⟩) =
      (proceed rt ⟨hs, up, .halt call⟩, teardown ⟨hs, up, .halt call'⟩) := by
  cases call with
  | ask =>
    cases goes
    exact step_of_ne (by simp [teardown]) rfl
  | time =>
    cases goes
    exact step_of_eq rfl rfl
  | look =>
    by_cases hsettled : rt.fleet.registry.settled = true
    · simp only [Halt.step?, if_pos hsettled, Option.some.injEq, Prod.mk.injEq] at goes
      obtain ⟨-, rfl⟩ := goes
      exact step_of_ne (by simp [teardown]) (if_pos hsettled)
    · simp only [Halt.step?, if_neg hsettled, Option.some.injEq, Prod.mk.injEq] at goes
      obtain ⟨-, rfl⟩ := goes
      exact step_of_eq rfl rfl
  | parked =>
    simp only [Halt.step?] at goes
    split at goes
    · cases goes
      exact step_of_eq rfl rfl
    · split at goes <;> cases goes
      exact step_of_eq rfl rfl
  | late =>
    cases hsettled : rt.fleet.registry.settled with
    | true =>
      simp only [Halt.step?, hsettled, Option.some.injEq, Prod.mk.injEq] at goes
      obtain ⟨-, rfl⟩ := goes
      exact step_of_ne (by simp [teardown]) (if_pos hsettled)
    | false =>
      simp only [Halt.step?, hsettled, Option.some.injEq, Prod.mk.injEq] at goes
      obtain ⟨-, rfl⟩ := goes
      have hinspect : Teardown.settle.step? rt true = some (rt, .inspect) := by
        simp [Teardown.step?, hsettled]
      exact step_of_ne (by simp [teardown]) hinspect
  | answered => cases goes

/-- A step of the disposal is a step of the teardown, or none. -/
theorem step_teardownStep (h : Refines rt d) (hgoes : Goes rt d d') :
    Teardown.step rt d.teardown (d.teardownStep d') = (d.proceed rt, d'.teardown) := by
  cases hgoes with
  | halt goes => exact step_halt goes
  | settled | late | empty => exact step_of_eq rfl rfl
  | inspect | release | again => exact step_of_ne (by simp [teardown]) rfl
  | @close _ _ pass => cases pass <;> exact step_of_ne (by simp [teardown]) rfl
  | @hangUp _ _ pass => cases pass <;> exact step_of_eq rfl rfl
  | @takeHandle _ _ pass there =>
    cases pass with
    | drop => exact step_of_eq rfl rfl
    | shutdown stuck =>
      refine step_of_ne (by simp [teardown]) ?_
      simp only [teardown, Teardown.step?, close_eq_takeHandle (h.hungUp stuck rfl), there, if_true]
      rfl
  | @taken _ _ pass gone =>
    cases pass with
    | drop => exact step_of_eq rfl rfl
    | shutdown stuck =>
      refine step_of_ne (by simp [teardown]) ?_
      simp only [teardown, Teardown.step?, close_eq_takeHandle (h.hungUp stuck rfl), gone,
        h.all stuck (Or.inl rfl)]
      rfl
  | @await _ _ pass ended =>
    cases pass with
    | drop => exact step_of_eq rfl rfl
    | shutdown stuck =>
      have hall := h.all stuck (Or.inr rfl)
      refine step_of_ne (by simp [teardown]) ((if_pos ended).trans ?_)
      rw [← hall]
      rfl
  | @take hs _ pass id i idle =>
    cases pass with
    | drop => exact step_of_eq rfl rfl
    | shutdown stuck =>
      obtain ⟨s, hs, rfl⟩ := h.ids id i List.mem_cons_self
      have hidle : Teardown.isStuck rt.fleet stuck i = true ∨ rt.fleet.hasExited i = true := by
        refine idle.imp_left fun hstuck => ?_
        have hmem : s.lcore.id ∈ stuck := hstuck
        simpa [Teardown.isStuck, hs] using hmem
      refine step_of_ne (by simp [teardown]) ?_
      simp only [teardown, List.map_cons, Teardown.step?]
      exact if_pos (by simpa using hidle)

/-- An event is an event of the teardown. -/
theorem step_teardown (h : Refines rt d) (ev : Event V Q A R) :
    Teardown.step rt d.teardown (ev.teardown rt d) =
      ((step rt d ev).1, (step rt d ev).2.teardown) := by
  cases ev with
  | fleet | executor => rfl
  | advance now woken =>
    simp only [Event.teardown, step]
    cases hstep : d.step? rt now woken with
    | none => rfl
    | some c =>
      obtain ⟨rt', d'⟩ := c
      obtain ⟨rfl, hgoes⟩ := goes_of_step? hstep
      exact step_teardownStep h hgoes

/-- The disposal is part of a shutdown, and no thread was waited for. -/
def Stage.isEarly (stage : Stage) : Bool :=
  stage.isTimed && !stage.isDrained

/-- The sender of the executor's queue was taken away. -/
def Stage.isHungUp : Stage → Bool
  | .takeHandle _ | .await _ | .join _ | .release | .done => true
  | _ => false

theorem Goes.early (h : Goes rt d d') (hearly : d'.stage.isEarly = true) :
    d.stage.isEarly = true ∧ d'.handles = d.handles := by
  cases h with
  | again | taken | await | take | empty | release =>
    simp [Stage.isEarly, Stage.isDrained, Stage.isTimed, Stage.pass?] at hearly
  | halt | settled | late | inspect => exact ⟨rfl, rfl⟩
  | close | hangUp | takeHandle => exact ⟨hearly, rfl⟩

theorem Goes.hungUp (h : Goes rt d d') (hhung : d'.stage.isHungUp = true) :
    d.stage.isHungUp = true ∨ ∃ pass, d.stage = .hangUp pass := by
  cases h with
  | hangUp => exact Or.inr ⟨_, rfl⟩
  | takeHandle | taken | await | take | empty | release => exact Or.inl rfl
  | _ => cases hhung

end Disposal

/-- A slot is that of the worker's core throughout. -/
theorem Run.lcore_eq {ρ : Run} {i : Nat} : ∀ {n : Nat} {s : Slot}, ρ.slot? n i = some s →
    ρ.lcores[i]? = some s.lcore
  | 0, s, h => by
    obtain ⟨l, hl, rfl⟩ := Option.map_eq_some_iff.1 ((List.getElem?_map ..).symm.trans h)
    exact hl
  | n + 1, s', h => by
    obtain ⟨p', hhas'⟩ := Run.has_of_slot? h
    obtain ⟨s, p, hhas⟩ := hhas'.pred
    rw [Run.lcore_eq hhas.1, (hhas.effect hhas').lcore_eq]

namespace Course

variable {χ : Course V Q A R} {n : Nat}

/-- Nobody hands the sender of the executor's queue back. -/
theorem accepting_of_hungUp (χ : Course V Q A R) : ∀ n, (χ.stage n).isHungUp = true →
    (χ.runtime n).executor.accepting = false
  | 0, h => by
    rw [stage, stage_zero] at h
    cases hlimit : χ.limit <;> rw [hlimit] at h <;> cases h
  | n + 1, h => by
    have hkept (hhung : (χ.stage n).isHungUp = true) :
        (χ.runtime (n + 1)).executor.accepting = false := by
      simp [runtime_succ, Executor.accepting_react, χ.accepting_of_hungUp n hhung]
    rcases χ.disposal_succ n with hsame | ⟨⟨now, woken, hev⟩, hgoes⟩
    · rw [stage, hsame] at h
      exact hkept h
    · rcases hgoes.hungUp h with hhung | ⟨pass, hstage⟩
      · exact hkept hhung
      · have hschedule : χ.service.schedule n = .hangUp := by
          simp [service, hev, Disposal.Event.onExecutor, stage, hstage, Disposal.Stage.onExecutor]
        simp [runtime_succ, Executor.accepting_react, hschedule, Executor.hangsUp]

/-- The first threads are waited for when the executor has ended. -/
theorem handles_of_early (χ : Course V Q A R) : ∀ n, (χ.stage n).isEarly = true →
    (χ.disposal n).handles = (χ.disposal 0).handles
  | 0, _ => rfl
  | n + 1, h => by
    rcases χ.disposal_succ n with hsame | ⟨-, hgoes⟩
    · rw [stage, hsame] at h
      rw [hsame, χ.handles_of_early n h]
    · obtain ⟨hearly, hhandles⟩ := hgoes.early h
      rw [hhandles, χ.handles_of_early n hearly]

/-- What a teardown relies on holds throughout. -/
theorem refines (χ : Course V Q A R) (n : Nat) :
    Disposal.Refines (χ.runtime n) (χ.disposal n) where
  hungUp stuck h := χ.accepting_of_hungUp n (by rw [stage, h]; rfl)
  all stuck h := by
    have hearly : (χ.stage n).isEarly = true := by
      rcases h with h | h <;> rw [stage, h] <;> rfl
    have hlength : (χ.runtime n).fleet.phases.length = χ.options.workers.length := by
      rw [← fleet_run]
      exact (χ.run.length_fleet n).2
    rw [handles_of_early χ n hearly, handles_zero, hlength, Runtime.threads, List.map_map,
      List.range_eq_range']
    exact List.zipIdx_map_snd 0 _
  ids id i h := by
    have hid := mem_handles_zero.1 ((χ.handles_suffix (Nat.zero_le n)).subset h)
    obtain ⟨l, hl, rfl⟩ := Option.map_eq_some_iff.1 ((List.getElem?_map ..).symm.trans hid)
    obtain ⟨s, p, hhas⟩ := Run.exists_has (ρ := χ.run) (List.getElem?_eq_some_iff.1 hl).1 n
    obtain rfl : s.lcore = l := Option.some.inj ((Run.lcore_eq hhas.1).symm.trans hl)
    have hslot : (χ.runtime n).fleet.registry.slots[i]? = some s := χ.fleet_run n ▸ hhas.1
    exact ⟨s, hslot, rfl⟩

/-- What happens to a runtime that is shut down happens to one that is torn down, with the same
effect on the runtime, and the teardown is at the stage to which that of the disposal belongs. -/
theorem exists_closure (χ : Course V Q A R) {timeout : Nat} (hlimit : χ.limit = some timeout) :
    ∃ κ : Closure V Q A R, κ.tuning = χ.tuning ∧ κ.options = χ.options ∧
      ∀ n, κ.runtime n = χ.runtime n ∧ κ.stage n = (χ.disposal n).teardown := by
  let κ : Closure V Q A R := ⟨χ.tuning, χ.options, fun n =>
    (χ.schedule n).teardown (χ.runtime n) (χ.disposal n)⟩
  have hstate : ∀ n, κ.state n = (χ.runtime n, (χ.disposal n).teardown) := by
    intro n
    induction n with
    | zero =>
      rw [Disposal.teardown, stage_zero, hlimit]
      rfl
    | succ n ih =>
      rw [Closure.state, ih]
      exact Disposal.step_teardown (χ.refines n) (χ.schedule n)
  exact ⟨κ, rfl, rfl, fun n => ⟨congrArg Prod.fst (hstate n), congrArg Prod.snd (hstate n)⟩⟩

end Course

end CoreFleet
