import CoreFleet.Executor.Basic

/-!
# The service of an executor

A `Service` is an executor together with an endless sequence of events, in any order :
submissions by any threads, the two halves of a stop, receivers that are dropped, steps of
the executor's own thread, and replies to the requests of jobs. A job stops the executor
by a step of its own, and submits further jobs while it waits on a request. An event that
cannot happen leaves the executor as it is (`Executor.react`), so that every sequence of
events is a service.

A submission is one event. Whether the job is accepted is decided while the sender of the
queue is locked, and a refusal goes to a receiver that nobody else holds yet.

`Accepts` and `Refuses` say what becomes of a submission, `Begins` that the executor's
thread begins a job, `Executes` that it carries a job out between two events and does
nothing else meanwhile : what is left of the job (`remainder`) is computed from the job,
from the context values that it finds and from the replies to its requests. `messages` is
what the receiver of a ticket was sent.
-/

namespace CoreFleet

variable {V Q A R : Type}

/-! ## Events -/

/-- What may happen to an executor. -/
inductive Executor.Event (V Q A R : Type)
  /-- Somebody submits a job. -/
  | submit (job : Job V Q A R)
  /-- Somebody who stops the executor takes the sender of its queue away. -/
  | hangUp
  /-- Somebody who stops the executor takes the handle of its thread. -/
  | takeHandle
  /-- The receiver of a ticket is dropped. -/
  | abandon (ticket : Nat)
  /-- The executor's thread makes a step. -/
  | step
  /-- The request of the running job is replied to. -/
  | resume (a : A)
  /-- Nothing happens. -/
  | pause

/-- The event, or nothing if it drops a receiver. -/
def Executor.Event.attentive : Executor.Event V Q A R → Executor.Event V Q A R
  | abandon _ => pause
  | ev => ev

theorem Executor.Event.attentive_attentive (ev : Executor.Event V Q A R) :
    ev.attentive.attentive = ev.attentive := by
  cases ev <;> rfl

theorem Executor.Event.attentive_eq_step_iff {ev : Executor.Event V Q A R} :
    ev.attentive = .step ↔ ev = .step := by
  cases ev <;> simp [attentive]

theorem Executor.Event.attentive_ne_abandon (ev : Executor.Event V Q A R) {ticket : Nat} :
    ev.attentive ≠ .abandon ticket := by
  cases ev <;> simp [attentive]

namespace Job

/-- The reply of a job that has nothing left to do : its answer, or its panic. -/
def reply? : Job V Q A R → Option (Except Error R)
  | answer r => some (.ok r)
  | crash p => some (.error (.jobPanic p.describe))
  | _ => none

/-- What is left of the running job after an event, before which the context value was
`value`. -/
def after (value : Option V) : Job V Q A R → Executor.Event V Q A R → Job V Q A R
  | look next, .step => next value
  | put _ next, .step => next
  | stop next, .step => next
  | ask _ next, .resume a => next a
  | job, _ => job

/-- The running job is brought forward by this event. -/
def Moves : Job V Q A R → Executor.Event V Q A R → Prop
  | ask .., ev => ∃ a, ev = .resume a
  | _, ev => ev = .step

theorem after_of_not_moves {job : Job V Q A R} {ev : Executor.Event V Q A R} {value : Option V}
    (h : ¬job.Moves ev) : job.after value ev = job := by
  cases job <;> cases ev <;> simp_all [Moves, after]

theorem moves_of_reply? {job : Job V Q A R} {r : Except Error R} (h : job.reply? = some r) :
    job.Moves .step := by
  cases job <;> simp_all [reply?, Moves]

theorem after_attentive (value : Option V) (job : Job V Q A R) (ev : Executor.Event V Q A R) :
    job.after value ev.attentive = job.after value ev := by
  cases ev <;> cases job <;> rfl

end Job

namespace Executor

/-- The executor after an event. Only a receiver that was given out is dropped. -/
def react (e : Executor V Q A R) : Event V Q A R → Executor V Q A R
  | .submit job => (e.submit job).2
  | .hangUp => e.hangUp
  | .takeHandle => e.takeHandle
  | .abandon ticket => if ticket < e.issued then e.abandon ticket else e
  | .step => e.step?.getD e
  | .resume a => e.resume a
  | .pause => e

/-- The executor, with what its receivers get and whether they were dropped forgotten. -/
def forget (e : Executor V Q A R) : Executor V Q A R := { e with replies := [], abandoned := [] }

/-! ## What an event does

Each field of the executor after an event is given by what the event begins, accepts, ends
and sends. The proofs about services use these equations and unfold no operation. -/

/-- The job that an event adds to the queue, with its ticket. -/
def accepts? (e : Executor V Q A R) : Event V Q A R → Option (Nat × Job V Q A R)
  | .submit job => if e.accepting then some (e.issued, job) else none
  | _ => none

/-- The job that the executor's thread begins at an event. -/
def begins? (e : Executor V Q A R) : Event V Q A R → Option (Nat × Job V Q A R)
  | .step => if e.current.isNone then e.queue.head? else none
  | _ => none

/-- The ticket and the reply of the job that ends at an event. -/
def ends? (e : Executor V Q A R) : Event V Q A R → Option (Nat × Except Error R)
  | .step => e.current.bind fun c => c.2.reply?.map fun r => (c.1, r)
  | _ => none

/-- The reply that is sent at an event, and its ticket : that of a job which ends, or a
refusal. -/
def sends? (e : Executor V Q A R) : Event V Q A R → Option (Nat × Except Error R)
  | .submit _ => if e.accepting then none else some (e.issued, .error .executorStopped)
  | ev => e.ends? ev

/-- The sender of the queue is taken away at an event, by a thread outside or by the running
job. -/
def hangsUp (e : Executor V Q A R) : Event V Q A R → Bool
  | .hangUp => true
  | .step => match e.current with
    | some (_, .stop _) => true
    | _ => false
  | _ => false

variable {e : Executor V Q A R} {ev : Event V Q A R} {ticket : Nat} {job : Job V Q A R}

/-! ### One kind of event at a time -/

theorem reply_eq (e : Executor V Q A R) (ticket : Nat) (r : Except Error R) :
    e.reply ticket r =
      { e with replies := e.replies ++ if ticket ∈ e.abandoned then [] else [(ticket, r)] } := by
  unfold reply
  split <;> simp

theorem fst_submit (e : Executor V Q A R) (job : Job V Q A R) : (e.submit job).1 = e.issued := by
  unfold submit
  split <;> rfl

theorem sends?_of_not_submit (h : ∀ job, ev ≠ .submit job) : e.sends? ev = e.ends? ev := by
  cases ev with
  | submit job => exact absurd rfl (h job)
  | _ => rfl

theorem react_submit (e : Executor V Q A R) (job : Job V Q A R) :
    e.react (.submit job) =
      { e with
        issued := e.issued + 1
        queue := e.queue ++ (e.accepts? (.submit job)).toList
        replies := e.replies ++
          (e.sends? (.submit job)).toList.filter fun m => m.1 ∉ e.abandoned } := by
  unfold react submit
  by_cases hopen : e.accepting = true
  · simp [accepts?, sends?, hopen]
  · by_cases hdropped : e.issued ∈ e.abandoned <;>
      simp [accepts?, sends?, hopen, reply_eq, hdropped]

theorem react_abandon (e : Executor V Q A R) (ticket : Nat) :
    e.react (.abandon ticket) =
      { e with
        abandoned := if ticket < e.issued then ticket :: e.abandoned else e.abandoned } := by
  change (if ticket < e.issued then e.abandon ticket else e) = _
  split <;> rfl

theorem react_resume (e : Executor V Q A R) (a : A) :
    e.react (.resume a) =
      { e with current := e.current.map fun c => (c.1, c.2.after e.value (.resume a)) } := by
  obtain ⟨_, _, _, _, current, _, _, _, _, _⟩ := e
  cases current with
  | none => rfl
  | some c =>
    obtain ⟨ticket, job⟩ := c
    cases job <;> rfl

/-- When no job runs, the executor's thread begins the first one of the queue, or ends. -/
theorem react_step_idle (h : e.current = none) :
    e.react .step =
      { e with
        queue := e.queue.tail
        current := e.queue.head?
        ended := e.ended || (e.queue.isEmpty && !e.accepting) } := by
  obtain ⟨_, accepting, _, queue, _, _, _, _, _, ended⟩ := e
  obtain rfl : _ = none := h
  cases queue with
  | nil => cases accepting <;> cases ended <;> rfl
  | cons => simp [react, step?]

/-- The running job makes a step, or waits on its request. What it does to the context value
is not spelled out. -/
theorem react_step_running (h : e.current = some (ticket, job)) :
    e.react .step =
      { e with
        accepting := e.accepting && !e.hangsUp .step
        joinable := e.joinable && !e.hangsUp .step
        value := (e.react .step).value
        current :=
          if (e.ends? .step).isSome then none else some (ticket, job.after e.value .step)
        replies := e.replies ++ (e.ends? .step).toList.filter fun m => m.1 ∉ e.abandoned } := by
  obtain ⟨_, _, _, _, _, _, _, _, abandoned, _⟩ := e
  obtain rfl : _ = some (ticket, job) := h
  by_cases hdropped : ticket ∈ abandoned <;> cases job <;>
    simp [react, step?, hangsUp, ends?, Job.reply?, Job.after, reply_eq, close, hdropped]

/-! ### One field at a time -/

/-- A job joins the queue at its end, and the first of the queue is begun. -/
theorem queue_react (e : Executor V Q A R) (ev : Event V Q A R) :
    e.queue ++ (e.accepts? ev).toList = (e.begins? ev).toList ++ (e.react ev).queue := by
  cases ev with
  | submit job => simp [react_submit, begins?]
  | step =>
    cases hcurrent : e.current with
    | none =>
      rw [react_step_idle hcurrent]
      cases hqueue : e.queue <;> simp [accepts?, begins?, hcurrent, hqueue]
    | some c =>
      rw [react_step_running hcurrent]
      simp [accepts?, begins?, hcurrent]
  | abandon ticket => simp [react_abandon, accepts?, begins?]
  | resume a => simp [react_resume, accepts?, begins?]
  | hangUp | takeHandle | pause => simp [react, accepts?, begins?, hangUp, takeHandle]

/-- Only the executor's thread begins a job, when none is running. -/
theorem current_react_of_none (h : e.current = none) :
    (e.react ev).current = e.begins? ev := by
  cases ev with
  | submit job => simp [react_submit, begins?, h]
  | step => simp [react_step_idle h, begins?, h]
  | abandon ticket => simp [react_abandon, begins?, h]
  | resume a => simp [react_resume, begins?, h]
  | hangUp | takeHandle | pause => exact h

/-- The running job is carried on, unless it ends. -/
theorem current_react_of_some (h : e.current = some (ticket, job)) :
    (e.react ev).current =
      if (e.ends? ev).isSome then none else some (ticket, job.after e.value ev) := by
  cases ev with
  | submit job' => cases job <;> simp [react_submit, ends?, Job.after, h]
  | step => rw [react_step_running h]
  | abandon ticket => cases job <;> simp [react_abandon, ends?, Job.after, h]
  | resume a => simp [react_resume, ends?, h]
  | hangUp | takeHandle | pause =>
    cases job <;> simp [react, ends?, hangUp, takeHandle, Job.after, h]

theorem begins?_of_some (h : e.current = some (ticket, job)) : e.begins? ev = none := by
  cases ev <;> simp [begins?, h]

theorem ends?_of_none (h : e.current = none) : e.ends? ev = none := by
  cases ev <;> simp [ends?, h]

/-- What is sent to a ticket reaches its receiver, unless this was dropped before. -/
theorem replies_react (e : Executor V Q A R) (ev : Event V Q A R) :
    (e.react ev).replies =
      e.replies ++ (e.sends? ev).toList.filter fun m => m.1 ∉ e.abandoned := by
  cases ev with
  | submit job => rw [react_submit]
  | step =>
    cases hcurrent : e.current with
    | none => simp [react_step_idle hcurrent, sends?, ends?, hcurrent]
    | some c =>
      rw [react_step_running hcurrent]
      rfl
  | abandon ticket => simp [react_abandon, sends?, ends?]
  | resume a => simp [react_resume, sends?, ends?]
  | hangUp | takeHandle | pause => simp [react, sends?, ends?, hangUp, takeHandle]

/-- Each submission takes a ticket of its own. -/
theorem issued_react (e : Executor V Q A R) (ev : Event V Q A R) :
    (e.react ev).issued = match ev with
      | .submit _ => e.issued + 1
      | _ => e.issued := by
  cases ev with
  | submit job => rw [react_submit]
  | step =>
    cases hcurrent : e.current with
    | none => rw [react_step_idle hcurrent]
    | some c => rw [react_step_running hcurrent]
  | abandon ticket => rw [react_abandon]
  | resume a => rw [react_resume]
  | hangUp | takeHandle | pause => rfl

/-- Jobs are accepted until the sender of the queue is taken away. -/
theorem accepting_react (e : Executor V Q A R) (ev : Event V Q A R) :
    (e.react ev).accepting = (e.accepting && !e.hangsUp ev) := by
  cases ev with
  | submit job => simp [react_submit, hangsUp]
  | step =>
    cases hcurrent : e.current with
    | none => simp [react_step_idle hcurrent, hangsUp, hcurrent]
    | some c => rw [react_step_running hcurrent]
  | abandon ticket => simp [react_abandon, hangsUp]
  | resume a => simp [react_resume, hangsUp]
  | hangUp | takeHandle | pause => simp [react, hangsUp, hangUp, takeHandle]

/-- The handle of the executor's thread stays, unless somebody who stops the executor takes it. -/
theorem joinable_react (hev : ev ≠ .takeHandle) (hhangs : e.hangsUp ev = false) :
    (e.react ev).joinable = e.joinable := by
  cases ev with
  | submit job => rw [react_submit]
  | step =>
    cases hcurrent : e.current with
    | none => rw [react_step_idle hcurrent]
    | some c =>
      rw [react_step_running hcurrent, hhangs]
      exact Bool.and_true _
  | abandon ticket => rw [react_abandon]
  | resume a => rw [react_resume]
  | takeHandle => exact absurd rfl hev
  | hangUp | pause => rfl

/-- The handle does not come back. -/
theorem joinable_react_of_taken (h : e.joinable = false) : (e.react ev).joinable = false := by
  cases ev with
  | submit job => rwa [react_submit]
  | step =>
    cases hcurrent : e.current with
    | none => rwa [react_step_idle hcurrent]
    | some c =>
      rw [react_step_running hcurrent]
      simp only [h, Bool.false_and]
  | abandon ticket => rwa [react_abandon]
  | resume a => rwa [react_resume]
  | takeHandle => rfl
  | hangUp | pause => exact h

/-- A receiver is dropped by its own event alone. -/
theorem abandoned_react (e : Executor V Q A R) (ev : Event V Q A R) :
    (e.react ev).abandoned = match ev with
      | .abandon ticket => if ticket < e.issued then ticket :: e.abandoned else e.abandoned
      | _ => e.abandoned := by
  cases ev with
  | submit job => rw [react_submit]
  | step =>
    cases hcurrent : e.current with
    | none => rw [react_step_idle hcurrent]
    | some c => rw [react_step_running hcurrent]
  | abandon ticket => rw [react_abandon]
  | resume a => rw [react_resume]
  | hangUp | takeHandle | pause => rfl

/-- The executor's thread ends when there is nothing left to do and nothing more is accepted. -/
theorem ended_react (h : (e.react ev).ended = true) :
    e.ended = true ∨ e.current = none ∧ e.queue = [] ∧ e.accepting = false := by
  cases ev with
  | submit job => exact Or.inl (by rwa [react_submit] at h)
  | step =>
    cases hcurrent : e.current with
    | none => simpa [react_step_idle hcurrent] using h
    | some c => exact Or.inl (by rwa [react_step_running hcurrent] at h)
  | abandon ticket => exact Or.inl (by rwa [react_abandon] at h)
  | resume a => exact Or.inl (by rwa [react_resume] at h)
  | hangUp | takeHandle | pause => exact Or.inl h

/-- The executor's thread does not come back. -/
theorem ended_react_of_ended (h : e.ended = true) : (e.react ev).ended = true := by
  cases ev with
  | submit job => rwa [react_submit]
  | step =>
    cases hcurrent : e.current with
    | none => simp [react_step_idle hcurrent, h]
    | some c => rwa [react_step_running hcurrent]
  | abandon ticket => rwa [react_abandon]
  | resume a => rwa [react_resume]
  | hangUp | takeHandle | pause => exact h

/-! ## Dropped receivers -/

/-- Receivers, and whether they are dropped, matter for the replies alone. -/
theorem forget_react (e : Executor V Q A R) (ev : Event V Q A R) :
    (e.react ev).forget = (e.forget.react ev.attentive).forget := by
  cases ev with
  | submit job => simp only [Event.attentive, react_submit, forget, accepts?]
  | step =>
    cases hcurrent : e.current with
    | none =>
      have hcurrent' : e.forget.current = none := hcurrent
      change _ = (e.forget.react .step).forget
      rw [react_step_idle hcurrent, react_step_idle hcurrent']
      rfl
    | some c =>
      obtain ⟨_, _, _, _, _, _, _, _, _, _⟩ := e
      obtain rfl : _ = some c := hcurrent
      obtain ⟨ticket, job⟩ := c
      cases job <;> simp [react, step?, reply_eq, close, forget, Event.attentive]
  | abandon ticket =>
    rw [react_abandon]
    rfl
  | resume a => simp only [Event.attentive, react_resume, forget]
  | hangUp | takeHandle | pause => rfl

theorem accepts?_forget (e : Executor V Q A R) (ev : Event V Q A R) :
    e.forget.accepts? ev.attentive = e.accepts? ev := by
  cases ev <;> rfl

theorem sends?_forget (e : Executor V Q A R) (ev : Event V Q A R) :
    e.forget.sends? ev.attentive = e.sends? ev := by
  cases ev <;> rfl

end Executor

/-- An executor on this core, and what happens to it. -/
structure Service (V Q A R : Type) where
  lcore : Lcore
  schedule : Nat → Executor.Event V Q A R

namespace Service

/-- The executor after `n` events. -/
def executor (σ : Service V Q A R) : Nat → Executor V Q A R
  | 0 => { lcore := σ.lcore }
  | n + 1 => (σ.executor n).react (σ.schedule n)

/-! ## What happens at an event -/

/-- At event `m` a job is submitted, and the submission has this ticket. -/
def Submits (σ : Service V Q A R) (m ticket : Nat) (job : Job V Q A R) : Prop :=
  σ.schedule m = .submit job ∧ ((σ.executor m).submit job).1 = ticket

/-- At event `m` the sender of the queue is taken away. -/
def HangsUp (σ : Service V Q A R) (m : Nat) : Prop :=
  (σ.executor m).hangsUp (σ.schedule m) = true

/-- The job is submitted while the sender of the queue is there. -/
def Accepts (σ : Service V Q A R) (m ticket : Nat) (job : Job V Q A R) : Prop :=
  σ.Submits m ticket job ∧ ∀ k < m, ¬σ.HangsUp k

/-- The job is submitted after the sender of the queue was taken away. -/
def Refuses (σ : Service V Q A R) (m ticket : Nat) (job : Job V Q A R) : Prop :=
  σ.Submits m ticket job ∧ ∃ k < m, σ.HangsUp k

/-- At event `m` the receiver of a ticket, which was given out, is dropped. -/
def Drops (σ : Service V Q A R) (m ticket : Nat) : Prop :=
  σ.schedule m = .abandon ticket ∧ ticket < (σ.executor m).issued

/-- At event `b` the executor's thread begins a job. -/
def Begins (σ : Service V Q A R) (b ticket : Nat) (job : Job V Q A R) : Prop :=
  (σ.executor b).current = none ∧ (σ.executor (b + 1)).current = some (ticket, job)

/-- What is left after `n` events of a job that is begun at event `b`. -/
def remainder (σ : Service V Q A R) (b : Nat) (job : Job V Q A R) : Nat → Job V Q A R
  | 0 => job
  | n + 1 =>
    if n ≤ b then job else (σ.remainder b job n).after (σ.executor n).value (σ.schedule n)

/-- The executor's thread begins a job at event `b`, runs this job and no other, and ends it
at event `e`, when it has come to its reply. -/
structure Executes (σ : Service V Q A R) (b e ticket : Nat) (job : Job V Q A R)
    (r : Except Error R) : Prop where
  begins : σ.Begins b ticket job
  runs : ∀ n, b < n → n ≤ e → (σ.executor n).current = some (ticket, σ.remainder b job n)
  lt : b < e
  ends : σ.schedule e = .step ∧ (σ.remainder b job e).reply? = some r

/-- What the receiver of a ticket was sent by the first `n` events. -/
def messages (σ : Service V Q A R) (n ticket : Nat) : List (Except Error R) :=
  ((σ.executor n).replies.filter fun m => m.1 = ticket).map Prod.snd

/-- The executor's thread goes on, and every request of a job is replied to at last. -/
structure Fair (σ : Service V Q A R) : Prop where
  steps : ∀ n, ∃ m ≥ n, σ.schedule m = .step
  replies : ∀ n ticket q next, (σ.executor n).current = some (ticket, .ask q next) →
    ∃ m ≥ n, ∃ a, σ.schedule m = .resume a

/-- The service with the same events, in which no receiver is dropped. -/
def attentive (σ : Service V Q A R) : Service V Q A R where
  lcore := σ.lcore
  schedule n := (σ.schedule n).attentive

end Service

end CoreFleet
