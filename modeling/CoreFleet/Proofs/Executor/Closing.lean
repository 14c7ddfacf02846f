import CoreFleet.Executor.Closing
import CoreFleet.Proofs.Executor.Delivery

/-!
# Executors that are stopped

A `Closing.Run` is an executor together with an endless sequence of events, in any order :
submissions, receivers that are dropped, steps of the executor's thread, replies to the requests of
jobs, and calls that stop the executor, each of which goes on at times of its own. What it does to
the executor is a service (`Run.service`, `executor_service`), so that all that holds of services
holds of an executor that is stopped step by step. Where a job stops the executor, its first step is
that the sender is taken away, and its second one is the job's own step (`Closing.onWork`).

`Sound` is what holds of the calls at any time : those that have gone on found the sender taken or
took it, those that have returned or wait found the handle taken or took it, and the call of a job
never waits.
-/

namespace CoreFleet

variable {V Q A R : Type}

namespace StopCall

/-- What the next step of the call does to the executor. -/
def onExecutor : StopCall → Executor.Event V Q A R
  | hangUp => .hangUp
  | takeHandle => .takeHandle
  | await | returned => .pause

/-- Where a call by another thread than the executor's stands when it has gone on, or has waited. -/
def next (e : Executor V Q A R) : StopCall → StopCall
  | hangUp => takeHandle
  | takeHandle => if e.joinable then await else returned
  | await => if e.ended then returned else await
  | returned => returned

end StopCall

namespace Closing

/-! ## Events -/

/-- What may happen to an executor and to the calls that stop it. -/
inductive Event (V Q A R : Type)
  /-- Somebody submits a job. -/
  | submit (job : Job V Q A R)
  /-- The receiver of a ticket is dropped. -/
  | abandon (ticket : Nat)
  /-- The executor's thread makes a step, if it need not wait. -/
  | work
  /-- The request of the running job is replied to. -/
  | resume (a : A)
  /-- Another thread than the executor's calls to stop the executor. -/
  | call
  /-- The `k`-th of these calls makes its next step, if it need not wait. -/
  | proceed (k : Nat)
  /-- Nothing happens. -/
  | pause

/-- The executor and the calls that stop it, after an event. -/
def react (c : Closing V Q A R) : Event V Q A R → Closing V Q A R
  | .submit job => { c with executor := c.executor.react (.submit job) }
  | .abandon ticket => { c with executor := c.executor.react (.abandon ticket) }
  | .work => c.work?.getD c
  | .resume a => { c with executor := c.executor.react (.resume a) }
  | .call => c.call
  | .proceed k => (c.proceed? k).getD c
  | .pause => c

/-- What a step of the executor's thread does to the executor. -/
def onWork (c : Closing V Q A R) : Executor.Event V Q A R :=
  match c.executor.current, c.inner with
  | some (_, .stop _), .hangUp => .hangUp
  | _, _ => .step

/-- What an event does to the executor. -/
def onExecutor (c : Closing V Q A R) : Event V Q A R → Executor.Event V Q A R
  | .submit job => .submit job
  | .abandon ticket => .abandon ticket
  | .work => c.onWork
  | .resume a => .resume a
  | .proceed k => (c.calls[k]?.map StopCall.onExecutor).getD .pause
  | .call | .pause => .pause

/-- What holds of the calls at any time. -/
structure Sound (c : Closing V Q A R) : Prop where
  inner : c.inner = .hangUp ∨ c.inner = .takeHandle ∧ c.executor.accepting = false ∧
    ∃ ticket next, c.executor.current = some (ticket, .stop next)
  sender : ∀ call ∈ c.calls, call ≠ .hangUp → c.executor.accepting = false
  handle : ∀ call ∈ c.calls, call = .await ∨ call = .returned → c.executor.joinable = false

variable {c c' : Closing V Q A R} {ev : Event V Q A R} {call : StopCall} {k ticket : Nat}
  {next : Job V Q A R}

/-! ## Steps of the executor's thread -/

/-- Before a job's call has made a step, its next step takes the sender away. -/
theorem react_work_hangUp (hstop : c.executor.current = some (ticket, .stop next))
    (hinner : c.inner = .hangUp) :
    c.react .work = { c with executor := c.executor.hangUp, inner := .takeHandle } := by
  simp [react, work?, hstop, hinner, StopCall.step?]

/-- The second step of a job's call takes the handle, if it is there, and the job goes on. -/
theorem react_work_takeHandle (hstop : c.executor.current = some (ticket, .stop next))
    (hinner : c.inner = .takeHandle) :
    c.react .work =
      { c with
        executor := { c.executor.takeHandle with current := some (ticket, next) }
        inner := .hangUp } := by
  simp [react, work?, hstop, hinner, StopCall.step?]

/-- The executor's thread makes a step of its own when the running job does not stop it. -/
theorem react_work_of_ne (h : ∀ ticket next, c.executor.current ≠ some (ticket, .stop next)) :
    c.react .work = { c with executor := c.executor.react .step } := by
  have hwork : c.work? = c.executor.step?.map fun executor => { c with executor } := by
    unfold work?
    split
    · next hstop => exact absurd hstop (h _ _)
    · rfl
  rw [react, hwork, Executor.react]
  cases c.executor.step? <;> rfl

/-- What a step of the executor's thread is : one of the two of a job's call, or another one. -/
theorem Sound.work_cases (h : c.Sound) :
    (∃ ticket next, c.executor.current = some (ticket, .stop next) ∧ c.inner = .hangUp) ∨
    (∃ ticket next, c.executor.current = some (ticket, .stop next) ∧ c.inner = .takeHandle ∧
      c.executor.accepting = false) ∨
    c.inner = .hangUp ∧ ∀ ticket next, c.executor.current ≠ some (ticket, .stop next) := by
  by_cases hstop : ∃ ticket next, c.executor.current = some (ticket, .stop next)
  · obtain ⟨ticket, next, hstop⟩ := hstop
    rcases h.inner with hinner | ⟨hinner, hclosed, -⟩
    · exact Or.inl ⟨ticket, next, hstop, hinner⟩
    · exact Or.inr (Or.inl ⟨ticket, next, hstop, hinner, hclosed⟩)
  · have hne : ∀ ticket next, c.executor.current ≠ some (ticket, .stop next) :=
      fun ticket next heq => hstop ⟨ticket, next, heq⟩
    rcases h.inner with hinner | ⟨-, -, heq⟩
    · exact Or.inr (Or.inr ⟨hinner, hne⟩)
    · exact absurd heq hstop

theorem onWork_hangUp (hstop : c.executor.current = some (ticket, .stop next))
    (hinner : c.inner = .hangUp) : c.onWork = .hangUp := by
  simp [onWork, hstop, hinner]

theorem onWork_takeHandle (hinner : c.inner = .takeHandle) : c.onWork = .step := by
  unfold onWork
  split <;> simp_all

theorem onWork_of_ne (h : ∀ ticket next, c.executor.current ≠ some (ticket, .stop next)) :
    c.onWork = .step := by
  unfold onWork
  split
  · next hstop _ => exact absurd hstop (h _ _)
  · rfl

/-- The second step of a job's call is the step of the executor's thread that makes the whole call,
for the sender is gone. -/
theorem react_step_stop {e : Executor V Q A R} (hstop : e.current = some (ticket, .stop next))
    (hclosed : e.accepting = false) :
    e.react .step = { e.takeHandle with current := some (ticket, next) } := by
  simp [Executor.react, Executor.step?, hstop, Executor.close, Executor.takeHandle, hclosed]

/-! ## Steps of other calls -/

/-- A call of another thread makes its next step, waits, or is not there. -/
theorem react_proceed (c : Closing V Q A R) (k : Nat) :
    c.react (.proceed k) =
      { c with
        executor := c.executor.react (c.onExecutor (.proceed k))
        calls := c.calls.modify k (·.next c.executor) } := by
  rw [List.modify_eq_set_getElem?]
  cases h : c.calls[k]? with
  | none => simp [react, proceed?, onExecutor, Executor.react, h]
  | some call =>
    obtain ⟨hk, heq⟩ := List.getElem?_eq_some_iff.1 h
    have hsame : c.calls.set k call = c.calls := by
      rw [← heq]
      exact List.set_getElem_self hk
    cases call with
    | hangUp | takeHandle =>
      simp [react, proceed?, onExecutor, StopCall.step?, StopCall.next, h]
      rfl
    | await =>
      by_cases hended : c.executor.ended = true <;>
        simp [react, proceed?, onExecutor, StopCall.step?, StopCall.next, StopCall.onExecutor,
          Executor.react, h, hended, hsame]
    | returned =>
      simp [react, proceed?, onExecutor, StopCall.step?, StopCall.next, StopCall.onExecutor,
        Executor.react, h, hsame]

/-! ## What a step does -/

/-- A new call is the last one, and a call is moved by its own steps alone. -/
theorem calls_react (c : Closing V Q A R) (ev : Event V Q A R) :
    (c.react ev).calls = match ev with
      | .call => c.calls ++ [.hangUp]
      | .proceed k => c.calls.modify k (·.next c.executor)
      | _ => c.calls := by
  cases ev with
  | work =>
    have hwork : ∀ c' ∈ c.work?, c'.calls = c.calls := by
      unfold work?
      split <;> intro c' hc' <;> obtain ⟨_, -, rfl⟩ := Option.map_eq_some_iff.1 hc'
      · dsimp only
        split <;> rfl
      · rfl
    cases h : c.work? with
    | none => simp [react, h]
    | some c' => simpa [react, h] using hwork c' h
  | proceed k => rw [react_proceed]
  | _ => rfl

theorem getElem?_calls_proceed (h : c.calls[k]? = some call) :
    (c.react (.proceed k)).calls[k]? = some (call.next c.executor) := by
  simp [calls_react, h]

/-- A call stays where it is, unless it makes a step. -/
theorem getElem?_calls_react (h : c.calls[k]? = some call) (ev : Event V Q A R) :
    (c.react ev).calls[k]? = some call ∨
      ev = .proceed k ∧ (c.react ev).calls[k]? = some (call.next c.executor) := by
  obtain ⟨hk, -⟩ := List.getElem?_eq_some_iff.1 h
  cases ev with
  | call => exact Or.inl (by rw [calls_react, List.getElem?_append_left hk, h])
  | proceed k' =>
    by_cases heq : k' = k
    · subst heq
      exact Or.inr ⟨rfl, getElem?_calls_proceed h⟩
    · exact Or.inl (by simp [calls_react, heq, h])
  | _ => exact Or.inl (by rw [calls_react, h])

/-- The calls after an event are those before it, where they were or one step further, and a new
one. -/
theorem mem_calls_react (h : call ∈ (c.react ev).calls) :
    call = .hangUp ∨ call ∈ c.calls ∨
      ∃ k call', ev = .proceed k ∧ c.calls[k]? = some call' ∧ call = call'.next c.executor := by
  rw [calls_react] at h
  cases ev with
  | call =>
    rcases List.mem_append.1 h with hold | hnew
    · exact Or.inr (Or.inl hold)
    · exact Or.inl (List.mem_singleton.1 hnew)
  | proceed k =>
    obtain ⟨j, hj⟩ := List.mem_iff_getElem?.1 h
    rw [List.getElem?_modify] at hj
    obtain ⟨call', hcall', hmoved⟩ := Option.map_eq_some_iff.1 hj
    by_cases hkj : k = j
    · subst hkj
      rw [if_pos rfl] at hmoved
      exact Or.inr (Or.inr ⟨k, call', rfl, hcall', hmoved.symm⟩)
    · rw [if_neg hkj] at hmoved
      exact Or.inr (Or.inl (hmoved ▸ List.mem_of_getElem? hcall'))
  | _ => exact Or.inr (Or.inl h)

/-- What an event does to the executor is an event of the executor. -/
theorem Sound.executor_react (h : c.Sound) (ev : Event V Q A R) :
    (c.react ev).executor = c.executor.react (c.onExecutor ev) := by
  cases ev with
  | work =>
    rcases h.work_cases with ⟨_, _, hstop, hinner⟩ | ⟨_, _, hstop, hinner, hclosed⟩ | ⟨-, hne⟩
    · rw [react_work_hangUp hstop hinner, onExecutor, onWork_hangUp hstop hinner]
      rfl
    · rw [react_work_takeHandle hstop hinner, onExecutor, onWork_takeHandle hinner,
        react_step_stop hstop hclosed]
    · rw [react_work_of_ne hne, onExecutor, onWork_of_ne hne]
  | proceed k => rw [react_proceed]
  | submit | abandon | resume | call | pause => rfl

/-- Only a step of the executor's thread is a step of the executor. -/
theorem onExecutor_ne_step (h : ev ≠ .work) : c.onExecutor ev ≠ .step := by
  cases ev with
  | work => exact absurd rfl h
  | proceed k =>
    cases hk : c.calls[k]? with
    | none => simp [onExecutor, hk]
    | some call => cases call <;> simp [onExecutor, hk, StopCall.onExecutor]
  | _ => simp [onExecutor]

theorem inner_react_of_ne (h : ev ≠ .work) : (c.react ev).inner = c.inner := by
  cases ev with
  | work => exact absurd rfl h
  | proceed k => rw [react_proceed]
  | _ => rfl

/-- A job that stops the executor is brought forward by its own thread alone. -/
theorem Sound.current_react_of_ne (h : c.Sound) (hev : ev ≠ .work)
    (hstop : c.executor.current = some (ticket, .stop next)) :
    (c.react ev).executor.current = some (ticket, .stop next) := by
  have hne := onExecutor_ne_step (c := c) hev
  rw [h.executor_react, Executor.current_react_of_some hstop]
  generalize c.onExecutor ev = ev' at hne
  cases ev' with
  | step => exact absurd rfl hne
  | _ => rfl

/-- The sender and the handle of the executor's thread do not come back. -/
theorem Sound.accepting_react (h : c.Sound) (hclosed : c.executor.accepting = false) :
    (c.react ev).executor.accepting = false := by
  rw [h.executor_react, Executor.accepting_react, hclosed, Bool.false_and]

theorem Sound.joinable_react (h : c.Sound) (htaken : c.executor.joinable = false) :
    (c.react ev).executor.joinable = false := by
  rw [h.executor_react]
  exact Executor.joinable_react_of_taken htaken

theorem Sound.ended_react (h : c.Sound) (hended : c.executor.ended = true) :
    (c.react ev).executor.ended = true := by
  rw [h.executor_react]
  exact Executor.ended_react_of_ended hended

/-- What holds of the calls holds of them after every event. -/
theorem Sound.react (h : c.Sound) (ev : Event V Q A R) : (c.react ev).Sound where
  inner := by
    by_cases hev : ev = .work
    · subst hev
      rcases h.work_cases with ⟨_, _, hstop, hinner⟩ | ⟨_, _, hstop, hinner, -⟩ | ⟨hinner, hne⟩
      · rw [react_work_hangUp hstop hinner]
        exact Or.inr ⟨rfl, rfl, _, _, hstop⟩
      · rw [react_work_takeHandle hstop hinner]
        exact Or.inl rfl
      · rw [react_work_of_ne hne]
        exact Or.inl hinner
    · rw [inner_react_of_ne hev]
      refine h.inner.imp_right fun ⟨hinner, hclosed, ticket, next, hstop⟩ => ?_
      exact ⟨hinner, h.accepting_react hclosed, ticket, next, h.current_react_of_ne hev hstop⟩
  sender call hcall hgone := by
    rcases mem_calls_react hcall with rfl | hold | ⟨k, call', rfl, hk, rfl⟩
    · exact absurd rfl hgone
    · exact h.accepting_react (h.sender call hold hgone)
    · cases call' with
      | hangUp =>
        rw [react_proceed, onExecutor, hk]
        rfl
      | _ => exact h.accepting_react (h.sender _ (List.mem_of_getElem? hk) nofun)
  handle call hcall hgone := by
    rcases mem_calls_react hcall with rfl | hold | ⟨k, call', rfl, hk, rfl⟩
    · exact absurd hgone (by simp)
    · exact h.joinable_react (h.handle call hold hgone)
    · cases call' with
      | hangUp => exact absurd hgone (by simp [StopCall.next])
      | takeHandle =>
        rw [react_proceed, onExecutor, hk]
        rfl
      | await | returned =>
        exact h.joinable_react (h.handle _ (List.mem_of_getElem? hk) (by simp))

/-! ## Runs -/

/-- An executor on this core, and what happens to it and to the calls that stop it. -/
structure Run (V Q A R : Type) where
  lcore : Lcore
  schedule : Nat → Event V Q A R

namespace Run

variable {ρ : Run V Q A R} {n m : Nat}

/-- The executor and the calls that stop it, after `n` events. -/
def state (ρ : Run V Q A R) : Nat → Closing V Q A R
  | 0 => { executor := { lcore := ρ.lcore } }
  | n + 1 => (ρ.state n).react (ρ.schedule n)

/-- What happens to the executor. -/
def service (ρ : Run V Q A R) : Service V Q A R where
  lcore := ρ.lcore
  schedule n := (ρ.state n).onExecutor (ρ.schedule n)

theorem sound (ρ : Run V Q A R) : ∀ n, (ρ.state n).Sound
  | 0 => ⟨Or.inl rfl, nofun, nofun⟩
  | n + 1 => (ρ.sound n).react (ρ.schedule n)

/-- The executor of a run is that of its service. -/
theorem executor_service (ρ : Run V Q A R) : ∀ n, ρ.service.executor n = (ρ.state n).executor
  | 0 => rfl
  | n + 1 => by
    rw [Service.executor, state, (ρ.sound n).executor_react, ρ.executor_service n]
    rfl

/-- The executor's thread goes on, and every request of a job is replied to at last. -/
structure Fair (ρ : Run V Q A R) : Prop where
  works : ∀ n, ∃ m ≥ n, ρ.schedule m = .work
  replies : ∀ n ticket q next, (ρ.state n).executor.current = some (ticket, .ask q next) →
    ∃ m ≥ n, ∃ a, ρ.schedule m = .resume a

/-- A job's call that has made its first step makes its second one when the executor's thread goes
on. The induction is on the number of events until then. -/
theorem exists_step : ∀ (d : Nat) {n : Nat}, (ρ.state n).inner = .takeHandle →
    ρ.schedule (n + d) = .work → ∃ m ≥ n, ρ.service.schedule m = .step
  | 0, n, hinner, hwork => by
    refine ⟨n, Nat.le_refl n, ?_⟩
    change (ρ.state n).onExecutor (ρ.schedule n) = .step
    rw [show ρ.schedule n = .work from hwork]
    exact onWork_takeHandle hinner
  | d + 1, n, hinner, hwork => by
    by_cases hnow : ρ.schedule n = .work
    · exact exists_step 0 hinner hnow
    · have hinner' : (ρ.state (n + 1)).inner = .takeHandle := by
        rw [state, inner_react_of_ne hnow, hinner]
      rw [Nat.add_comm d, ← Nat.add_assoc] at hwork
      obtain ⟨m, hm, hstep⟩ := exists_step d hinner' hwork
      exact ⟨m, by omega, hstep⟩

/-- The executor's thread goes on though a job's call takes two steps. -/
theorem Fair.service (hfair : ρ.Fair) : ρ.service.Fair where
  steps n := by
    obtain ⟨m, hm, hwork⟩ := hfair.works n
    rcases (ρ.sound m).work_cases with ⟨_, _, hstop, hinner⟩ | ⟨_, _, -, hinner, -⟩ | ⟨-, hne⟩
    · have hinner' : (ρ.state (m + 1)).inner = .takeHandle := by
        rw [state, hwork, react_work_hangUp hstop hinner]
      obtain ⟨m', hm', hwork'⟩ := hfair.works (m + 1)
      obtain ⟨d, rfl⟩ := Nat.exists_eq_add_of_le hm'
      obtain ⟨l, hl, hstep⟩ := exists_step d hinner' hwork'
      exact ⟨l, by omega, hstep⟩
    · obtain ⟨l, hl, hstep⟩ := exists_step 0 hinner hwork
      exact ⟨l, by omega, hstep⟩
    · refine ⟨m, hm, ?_⟩
      change (ρ.state m).onExecutor (ρ.schedule m) = .step
      rw [hwork]
      exact onWork_of_ne hne
  replies n ticket q next hcurrent := by
    rw [ρ.executor_service] at hcurrent
    obtain ⟨m, hm, a, hresume⟩ := hfair.replies n ticket q next hcurrent
    refine ⟨m, hm, a, ?_⟩
    change (ρ.state m).onExecutor (ρ.schedule m) = .resume a
    rw [hresume]
    rfl

end Run

end Closing

end CoreFleet
