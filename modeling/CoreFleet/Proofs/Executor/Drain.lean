import CoreFleet.Proofs.Executor.Closing

/-!
# Stopping an executor drains it

`stop_drains` says what whoever stops an executor may rely on, whatever others do meanwhile. When
the call has returned that took the handle of the executor's thread, this thread has ended, and so
every job that was accepted has been carried out and answered, and none is carried out any more. A
job that stops the executor is never kept waiting, what was accepted before it is still carried out,
and what is submitted from then on is refused. Calls that stop the executor when the sender of its
queue is gone change nothing but who has the handle (`Run.quiet`).

The first part follows a call from the time when it takes the handle (`Run.TakesHandle.waits`), and
the last one compares two runs event by event (`Sound.react_quiet`).
-/

namespace CoreFleet

variable {V Q A R : Type}

/-! ## Services whose sender is gone -/

namespace Executor

/-- Nobody can stop the executor any more : the sender of its queue and the handle of its thread are
gone. -/
structure Stopped (e : Executor V Q A R) : Prop where
  closed : e.accepting = false
  taken : e.joinable = false

theorem hangUp_of_closed {e : Executor V Q A R} (h : e.accepting = false) : e.hangUp = e := by
  rw [hangUp, ← h]

theorem takeHandle_of_taken {e : Executor V Q A R} (h : e.joinable = false) :
    e.takeHandle = e := by
  rw [takeHandle, ← h]

/-- Who has the handle of its thread is nothing to the executor. -/
theorem takeHandle_react (e : Executor V Q A R) (ev : Event V Q A R) :
    (e.react ev).takeHandle = (e.takeHandle.react ev).takeHandle := by
  cases ev with
  | submit job => simp only [react_submit, takeHandle, accepts?, sends?]
  | step =>
    cases hcurrent : e.current with
    | none =>
      have hcurrent' : e.takeHandle.current = none := hcurrent
      rw [react_step_idle hcurrent, react_step_idle hcurrent']
      rfl
    | some c =>
      obtain ⟨_, _, _, _, _, _, _, _, _, _⟩ := e
      obtain rfl : _ = some c := hcurrent
      obtain ⟨ticket, job⟩ := c
      cases job <;> simp [react, step?, reply_eq, close, takeHandle]
  | abandon ticket => simp only [react_abandon, takeHandle]
  | resume a => simp only [react_resume, takeHandle]
  | hangUp | takeHandle | pause => rfl

end Executor

namespace Service

variable {σ : Service V Q A R} {n m b e ticket : Nat} {job : Job V Q A R} {r : Except Error R}

/-- The job was carried out by the first `n` events, and its receiver has its reply and no other
message, unless it was dropped before. -/
def Settled (σ : Service V Q A R) (n ticket : Nat) (job : Job V Q A R) : Prop :=
  ∃ b e r, e < n ∧ σ.Executes b e ticket job r ∧
    ((∀ k < e, ¬σ.Drops k ticket) → σ.messages n ticket = [r])

theorem Accepts.settled (h : σ.Accepts m ticket job) (hexec : σ.Executes b e ticket job r)
    (hen : e < n) : σ.Settled n ticket job := by
  refine ⟨b, e, r, hen, hexec, fun hheard => ?_⟩
  rw [h.messages_eq hexec n, if_pos ⟨hen, not_mem_abandoned hheard⟩]

/-- When the executor's thread has ended, every accepted job is settled. -/
theorem Accepts.settled_of_ended (h : σ.Accepts m ticket job)
    (hended : (σ.executor n).ended = true) : σ.Settled n ticket job := by
  obtain ⟨b, e, r, hen, hexec⟩ := executes_of_ended hended h
  exact h.settled hexec hen

/-- If the executor's thread goes on and requests are replied to, every accepted job is settled at
last. -/
theorem Fair.settled (hfair : σ.Fair) (h : σ.Accepts m ticket job) :
    ∃ e, ∀ n > e, σ.Settled n ticket job := by
  obtain ⟨b, hbegins⟩ := hfair.begins_of_accepts h
  obtain ⟨e, r, hexec⟩ := hfair.exists_executes hbegins
  exact ⟨e, fun n hn => h.settled hexec hn⟩

theorem closed_of_le (h : (σ.executor n).accepting = false) (hnm : n ≤ m) :
    (σ.executor m).accepting = false := by
  induction m, hnm using Nat.le_induction with
  | base => exact h
  | succ m hm ih => rw [executor, Executor.accepting_react, ih, Bool.false_and]

/-- Nothing is accepted when the sender is gone. -/
theorem accepted_of_closed (h : (σ.executor n).accepting = false) (hnm : n ≤ m) :
    σ.accepted m = σ.accepted n := by
  induction m, hnm using Nat.le_induction with
  | base => rfl
  | succ m hm ih =>
    have hnone : (σ.executor m).accepts? (σ.schedule m) = none := by
      cases hev : σ.schedule m <;> simp [Executor.accepts?, closed_of_le h hm]
    rw [accepted_succ, hnone, ih, Option.toList_none, List.append_nil]

/-- The queue runs empty when the sender is gone, and stays so. -/
theorem Fair.exists_queue_eq_nil (hfair : σ.Fair) (h : (σ.executor n).accepting = false) :
    ∃ m ≥ n, ∀ m' ≥ m, (σ.executor m').queue = [] := by
  obtain ⟨m, hm, hle⟩ := hfair.exists_length_begun n _ (Nat.le_refl _)
  refine ⟨m, hm, fun m' hm' => List.eq_nil_of_length_eq_zero ?_⟩
  have hlength := congrArg List.length (σ.accepted_eq m')
  rw [accepted_of_closed h (Nat.le_trans hm hm'), List.length_append] at hlength
  have hmono := (σ.begun_prefix hm').length_le
  omega

/-- The executor's thread ends when the sender is gone. -/
theorem Fair.exists_ended (hfair : σ.Fair) (h : (σ.executor n).accepting = false) :
    ∃ m ≥ n, (σ.executor m).ended = true := by
  obtain ⟨m, hm, hempty⟩ := hfair.exists_queue_eq_nil h
  obtain ⟨i, hi, hidle⟩ := hfair.exists_idle m
  have hidle' : ∀ l ≥ i, (σ.executor l).current = none := by
    intro l hl
    induction l, hl using Nat.le_induction with
    | base => exact hidle
    | succ l hl ih =>
      rw [executor, Executor.current_react_of_none ih]
      cases hev : σ.schedule l <;> simp [Executor.begins?, hempty l (by omega)]
  obtain ⟨l, hl, hstep⟩ := hfair.steps i
  refine ⟨l + 1, by omega, ?_⟩
  rw [executor, hstep, Executor.react_step_idle (hidle' l hl)]
  simp [hempty l (by omega), closed_of_le h (show n ≤ l by omega)]

end Service

namespace StopCall

/-- The number of steps that are left of a call which does not get the handle. -/
def left : StopCall → Nat
  | hangUp => 2
  | takeHandle => 1
  | await | returned => 0

/-- A call that finds the handle gone does not wait. -/
theorem next_of_taken {e : Executor V Q A R} {call : StopCall} (htaken : e.joinable = false)
    (hne : call ≠ .await) : call.next e ≠ .await ∧ (call.next e).left = call.left - 1 := by
  cases call with
  | await => exact absurd rfl hne
  | _ => simp [next, left, htaken]

theorem returned_iff_left_eq_zero {call : StopCall} (hne : call ≠ .await) :
    call = .returned ↔ call.left = 0 := by
  cases call <;> simp_all [left]

end StopCall

namespace Closing

/-! ## Calls that change nothing -/

/-- The event, or nothing if it is one of a call by another thread than the executor's. -/
def Event.quiet : Event V Q A R → Event V Q A R
  | call | proceed _ => pause
  | ev => ev

variable {c c' : Closing V Q A R} {ev : Event V Q A R}

theorem onWork_congr (hcurrent : c'.executor.current = c.executor.current)
    (hinner : c'.inner = c.inner) : c'.onWork = c.onWork := by
  rw [onWork, onWork, hcurrent, hinner]

/-- When the sender is gone, a step of a call does nothing to the executor but that it may take the
handle. -/
theorem takeHandle_react_onExecutor (hclosed : c.executor.accepting = false)
    (hcurrent : c'.executor.current = c.executor.current) (hinner : c'.inner = c.inner) :
    (c.executor.react (c'.onExecutor ev.quiet)).takeHandle =
      (c.executor.react (c.onExecutor ev)).takeHandle := by
  cases ev with
  | work =>
    change (c.executor.react c'.onWork).takeHandle = (c.executor.react c.onWork).takeHandle
    rw [onWork_congr hcurrent hinner]
  | proceed k =>
    change c.executor.takeHandle = _
    cases hk : c.calls[k]? with
    | none =>
      rw [onExecutor, hk]
      rfl
    | some call =>
      rw [onExecutor, hk]
      cases call with
      | hangUp =>
        change _ = c.executor.hangUp.takeHandle
        rw [Executor.hangUp_of_closed hclosed]
      | _ => rfl
  | _ => rfl

/-- When the sender is gone, the executor goes on in the same way without the calls of other
threads. -/
theorem Sound.react_quiet (h : c.Sound) (h' : c'.Sound) (hclosed : c.executor.accepting = false)
    (hexecutor : c'.executor.takeHandle = c.executor.takeHandle) (hinner : c'.inner = c.inner) :
    (c'.react ev.quiet).executor.takeHandle = (c.react ev).executor.takeHandle ∧
      (c'.react ev.quiet).inner = (c.react ev).inner := by
  have hcurrent : c'.executor.current = c.executor.current := by
    have hcongr := congrArg Executor.current hexecutor
    exact hcongr
  constructor
  · rw [h'.executor_react, h.executor_react, Executor.takeHandle_react c'.executor, hexecutor,
      ← Executor.takeHandle_react, takeHandle_react_onExecutor hclosed hcurrent hinner]
  · by_cases hev : ev = .work
    · subst hev
      change (c'.react .work).inner = _
      rcases h.work_cases with ⟨_, _, hstop, hin⟩ | ⟨_, _, hstop, hin, -⟩ | ⟨-, hne⟩
      · rw [react_work_hangUp hstop hin,
          react_work_hangUp (hcurrent.trans hstop) (hinner.trans hin)]
      · rw [react_work_takeHandle hstop hin,
          react_work_takeHandle (hcurrent.trans hstop) (hinner.trans hin)]
      · rw [react_work_of_ne hne, react_work_of_ne fun t j => hcurrent ▸ hne t j]
        exact hinner
    · have hquiet : ev.quiet ≠ .work := by cases ev <;> simp_all [Event.quiet]
      rw [inner_react_of_ne hev, inner_react_of_ne hquiet, hinner]

namespace Run

variable {ρ : Run V Q A R} {h k n m ticket : Nat} {next : Job V Q A R} {call : StopCall}

/-- The run in which no call of another thread than the executor's goes on after the first `n`
events. -/
def quiet (ρ : Run V Q A R) (n : Nat) : Run V Q A R where
  lcore := ρ.lcore
  schedule m := if m < n then ρ.schedule m else (ρ.schedule m).quiet

theorem state_quiet_of_le (hmn : m ≤ n) : (ρ.quiet n).state m = ρ.state m := by
  induction m with
  | zero => rfl
  | succ m ih =>
    rw [state, state, ih (by omega), quiet]
    simp only [if_pos (show m < n by omega)]

theorem closed_of_le (hclosed : (ρ.state n).executor.accepting = false) (hnm : n ≤ m) :
    (ρ.state m).executor.accepting = false := by
  rw [← ρ.executor_service] at hclosed ⊢
  exact Service.closed_of_le hclosed hnm

theorem taken_of_le (htaken : (ρ.state n).executor.joinable = false) (hnm : n ≤ m) :
    (ρ.state m).executor.joinable = false := by
  induction m, hnm using Nat.le_induction with
  | base => exact htaken
  | succ m hm ih => exact (ρ.sound m).joinable_react ih

theorem ended_of_le (hended : (ρ.state n).executor.ended = true) (hnm : n ≤ m) :
    (ρ.state m).executor.ended = true := by
  induction m, hnm using Nat.le_induction with
  | base => exact hended
  | succ m hm ih => exact (ρ.sound m).ended_react ih

/-- Calls of other threads when the sender is gone do nothing to the executor, but for the
handle. -/
theorem takeHandle_quiet (hclosed : (ρ.state n).executor.accepting = false) (m : Nat) :
    ((ρ.quiet n).state m).executor.takeHandle = (ρ.state m).executor.takeHandle := by
  have hboth : ((ρ.quiet n).state m).executor.takeHandle = (ρ.state m).executor.takeHandle ∧
      ((ρ.quiet n).state m).inner = (ρ.state m).inner := by
    rcases Nat.le_total m n with hmn | hnm
    · rw [state_quiet_of_le hmn]
      exact ⟨rfl, rfl⟩
    · induction m, hnm using Nat.le_induction with
      | base =>
        rw [state_quiet_of_le (Nat.le_refl n)]
        exact ⟨rfl, rfl⟩
      | succ m hm ih =>
        have hev : (ρ.quiet n).schedule m = (ρ.schedule m).quiet := if_neg (by omega)
        rw [state, state, hev]
        exact (ρ.sound m).react_quiet ((ρ.quiet n).sound m) (closed_of_le hclosed hm) ih.1 ih.2
  exact hboth.1

/-- Calls of other threads do nothing to an executor that was stopped. -/
theorem executor_quiet (hstopped : (ρ.state n).executor.Stopped) (m : Nat) :
    ((ρ.quiet n).state m).executor = (ρ.state m).executor := by
  rcases Nat.le_total m n with hmn | hnm
  · rw [state_quiet_of_le hmn]
  · have hstart : ((ρ.quiet n).state n).executor.joinable = false := by
      rw [state_quiet_of_le (Nat.le_refl n)]
      exact hstopped.taken
    have hsame := takeHandle_quiet hstopped.closed m
    rwa [Executor.takeHandle_of_taken (taken_of_le hstart hnm),
      Executor.takeHandle_of_taken (taken_of_le hstopped.taken hnm)] at hsame

/-! ## The call that has the handle -/

/-- At event `h` the `k`-th call by another thread than the executor's takes the handle of this
thread, which nobody has taken before. -/
structure TakesHandle (ρ : Run V Q A R) (h k : Nat) : Prop where
  proceeds : ρ.schedule h = .proceed k
  call : (ρ.state h).calls[k]? = some .takeHandle
  joinable : (ρ.state h).executor.joinable = true

/-- A call that has the handle waits until the executor's thread has ended. -/
theorem TakesHandle.waits (htakes : ρ.TakesHandle h k) (hn : h < n) :
    (ρ.state n).calls[k]? = some .await ∨
      (ρ.state n).calls[k]? = some .returned ∧ (ρ.state n).executor.ended = true := by
  induction n, hn using Nat.le_induction with
  | base =>
    obtain ⟨hev, hcall, hjoinable⟩ := htakes
    rw [state, hev, getElem?_calls_proceed hcall]
    exact Or.inl (by simp [StopCall.next, hjoinable])
  | succ n hn ih =>
    rcases ih with hawait | ⟨hreturned, hended⟩
    · rcases getElem?_calls_react hawait (ρ.schedule n) with hsame | ⟨-, hnext⟩
      · exact Or.inl hsame
      · by_cases hended : (ρ.state n).executor.ended = true
        · rw [StopCall.next, if_pos hended] at hnext
          exact Or.inr ⟨hnext, (ρ.sound n).ended_react hended⟩
        · rw [StopCall.next, if_neg hended] at hnext
          exact Or.inl hnext
    · refine Or.inr ⟨?_, (ρ.sound n).ended_react hended⟩
      rcases getElem?_calls_react hreturned (ρ.schedule n) with hsame | ⟨-, hnext⟩
      · exact hsame
      · exact hnext

theorem TakesHandle.ended (htakes : ρ.TakesHandle h k) (hn : h < n)
    (hreturned : (ρ.state n).calls[k]? = some .returned) :
    (ρ.state n).executor.ended = true := by
  rcases htakes.waits hn with hawait | ⟨-, hended⟩
  · rw [hawait] at hreturned
    cases hreturned
  · exact hended

/-- A call that has the handle and goes on returns, if the executor's thread goes on and requests
are replied to. -/
theorem TakesHandle.exists_returned (htakes : ρ.TakesHandle h k) (hfair : ρ.Fair)
    (hgoes : ∀ n, ∃ m ≥ n, ρ.schedule m = .proceed k) :
    ∃ n > h, (ρ.state n).calls[k]? = some .returned := by
  have hclosed : (ρ.state h).executor.accepting = false :=
    (ρ.sound h).sender _ (List.mem_of_getElem? htakes.call) nofun
  rw [← ρ.executor_service] at hclosed
  obtain ⟨n, hn, hended⟩ := hfair.service.exists_ended hclosed
  rw [ρ.executor_service] at hended
  obtain ⟨m, hm, hproceeds⟩ := hgoes (n + 1)
  rcases htakes.waits (show h < m by omega) with hawait | ⟨hreturned, -⟩
  · refine ⟨m + 1, by omega, ?_⟩
    have hended' := ended_of_le hended (show n ≤ m by omega)
    rw [state, hproceeds, getElem?_calls_proceed hawait, StopCall.next, if_pos hended']
  · exact ⟨m, by omega, hreturned⟩

/-! ## Calls when the handle is gone -/

/-- When the handle is gone, a call that does not have it is never kept waiting. -/
theorem exists_left_le (htaken : (ρ.state n).executor.joinable = false) (hne : call ≠ .await)
    (hcall : (ρ.state n).calls[k]? = some call) (hnm : n ≤ m) :
    ∃ call', (ρ.state m).calls[k]? = some call' ∧ call' ≠ .await ∧ call'.left ≤ call.left := by
  induction m, hnm using Nat.le_induction with
  | base => exact ⟨call, hcall, hne, Nat.le_refl _⟩
  | succ m hm ih =>
    obtain ⟨call', hcall', hne', hleft⟩ := ih
    rcases getElem?_calls_react hcall' (ρ.schedule m) with hsame | ⟨-, hnext⟩
    · exact ⟨call', hsame, hne', hleft⟩
    · obtain ⟨hne'', hleft'⟩ := StopCall.next_of_taken (taken_of_le htaken hm) hne'
      exact ⟨_, hnext, hne'', by omega⟩

/-- When the handle is gone, a call that does not have it has returned after two steps. -/
theorem returned_of_two_steps {m' : Nat} (htaken : (ρ.state n).executor.joinable = false)
    (hne : call ≠ .await) (hcall : (ρ.state n).calls[k]? = some call) (hnm : n ≤ m) (hmm : m < m')
    (hfirst : ρ.schedule m = .proceed k) (hsecond : ρ.schedule m' = .proceed k) :
    (ρ.state (m' + 1)).calls[k]? = some .returned := by
  have hstep {i : Nat} {call : StopCall} (hni : n ≤ i) (hev : ρ.schedule i = .proceed k)
      (hcall : (ρ.state i).calls[k]? = some call) (hne : call ≠ .await) :
      ∃ call', (ρ.state (i + 1)).calls[k]? = some call' ∧ call' ≠ .await ∧
        call'.left = call.left - 1 := by
    refine ⟨_, ?_, StopCall.next_of_taken (taken_of_le htaken hni) hne⟩
    rw [state, hev, getElem?_calls_proceed hcall]
  obtain ⟨c₁, hcall₁, hne₁, hleft₁⟩ := exists_left_le htaken hne hcall hnm
  obtain ⟨c₂, hcall₂, hne₂, hleft₂⟩ := hstep hnm hfirst hcall₁ hne₁
  have htaken' := taken_of_le htaken (show n ≤ m + 1 by omega)
  obtain ⟨c₃, hcall₃, hne₃, hleft₃⟩ := exists_left_le htaken' hne₂ hcall₂ hmm
  obtain ⟨c₄, hcall₄, hne₄, hleft₄⟩ := hstep (by omega) hsecond hcall₃ hne₃
  have htwo : call.left ≤ 2 := by cases call <;> simp [StopCall.left]
  rw [hcall₄, (StopCall.returned_iff_left_eq_zero hne₄).2 (by omega)]

/-! ## Jobs that stop the executor -/

/-- At event `n` the running job begins a call that stops the executor, after which it goes on with
`next`. -/
structure StopsWithin (ρ : Run V Q A R) (n ticket : Nat) (next : Job V Q A R) : Prop where
  works : ρ.schedule n = .work
  current : (ρ.state n).executor.current = some (ticket, .stop next)
  inner : (ρ.state n).inner = .hangUp

theorem StopsWithin.hangsUp (hstops : ρ.StopsWithin n ticket next) : ρ.service.HangsUp n := by
  have hev : ρ.service.schedule n = .hangUp := by
    change (ρ.state n).onExecutor (ρ.schedule n) = .hangUp
    rw [hstops.works]
    exact onWork_hangUp hstops.current hstops.inner
  rw [Service.HangsUp, hev]
  rfl

/-- The call of a job stays after its first step until the executor's thread makes another one. -/
theorem StopsWithin.halfway (hstops : ρ.StopsWithin n ticket next) (hnm : n < m)
    (hnone : ∀ i, n < i → i < m → ρ.schedule i ≠ .work) :
    (ρ.state m).executor.current = some (ticket, .stop next) ∧
      (ρ.state m).inner = .takeHandle := by
  induction m, hnm using Nat.le_induction with
  | base =>
    rw [state, hstops.works, react_work_hangUp hstops.current hstops.inner]
    exact ⟨hstops.current, rfl⟩
  | succ m hm ih =>
    obtain ⟨hcurrent, hinner⟩ := ih fun i hni him => hnone i hni (Nat.lt_succ_of_lt him)
    have hev := hnone m hm (Nat.lt_succ_self m)
    refine ⟨(ρ.sound m).current_react_of_ne hev hcurrent, ?_⟩
    rw [state, inner_react_of_ne hev, hinner]

/-- The second step of the executor's thread brings the job forward, whoever has the handle. -/
theorem StopsWithin.goes_on (hstops : ρ.StopsWithin n ticket next) (hnm : n < m)
    (hnone : ∀ i, n < i → i < m → ρ.schedule i ≠ .work) (hworks : ρ.schedule m = .work) :
    (ρ.state (m + 1)).executor.current = some (ticket, next) ∧
      (ρ.state (m + 1)).executor.Stopped := by
  obtain ⟨hcurrent, hinner⟩ := hstops.halfway hnm hnone
  have hclosed : (ρ.state m).executor.accepting = false := by
    rcases (ρ.sound m).inner with hinner' | ⟨-, hclosed, -⟩
    · rw [hinner] at hinner'
      cases hinner'
    · exact hclosed
  rw [state, hworks, react_work_takeHandle hcurrent hinner]
  exact ⟨rfl, hclosed, rfl⟩

/-- What is submitted after a job's call has begun is refused. -/
theorem StopsWithin.refuses {t : Nat} {job : Job V Q A R} (hstops : ρ.StopsWithin n ticket next)
    (hsubmits : ρ.service.Submits m t job) (hnm : n < m) : ρ.service.Refuses m t job :=
  ⟨hsubmits, n, hnm, hstops.hangsUp⟩

/-- A call of a job when the executor was stopped does nothing but bring the job forward. -/
theorem executor_work_of_stopped (hstopped : (ρ.state n).executor.Stopped)
    (hworks : ρ.schedule n = .work)
    (hcurrent : (ρ.state n).executor.current = some (ticket, .stop next)) :
    (ρ.state (n + 1)).executor = (ρ.state n).executor ∨
      (ρ.state (n + 1)).executor =
        { (ρ.state n).executor with current := some (ticket, next) } := by
  rw [state, hworks]
  rcases (ρ.sound n).inner with hinner | ⟨hinner, -, -⟩
  · rw [react_work_hangUp hcurrent hinner]
    exact Or.inl (Executor.hangUp_of_closed hstopped.closed)
  · rw [react_work_takeHandle hcurrent hinner, Executor.takeHandle_of_taken hstopped.taken]
    exact Or.inr rfl

/-! ## Draining -/

/-- The call of another thread than the executor's that has the handle returns only when the
executor's thread has ended : every accepted job is settled then, and no job runs any more. It does
return if it goes on, if the executor's thread goes on and if requests are replied to. A call within
a job takes two steps of the executor's thread, whoever has the handle, and whatever is submitted
after its first step is never begun and is answered by the refusal alone. Every accepted job is
settled at last, if the executor's thread goes on and requests are replied to. A call that has
returned leaves the executor stopped. When the sender is gone, calls of other threads change nothing
but who has the handle, and nothing at all when the executor was stopped. Such a call returns after
two steps, and a further call within a job only brings the job forward. -/
theorem stop_drains (ρ : Run V Q A R) :
    (∀ h k n, ρ.TakesHandle h k → h < n → (ρ.state n).calls[k]? = some .returned →
      (∀ m t j, ρ.service.Accepts m t j → ρ.service.Settled n t j) ∧
      ∀ m ≥ n, (ρ.state m).executor.current = none) ∧
    (∀ h k, ρ.Fair → ρ.TakesHandle h k → (∀ n, ∃ m ≥ n, ρ.schedule m = .proceed k) →
      ∃ n > h, (ρ.state n).calls[k]? = some .returned) ∧
    (∀ n t next, ρ.StopsWithin n t next →
      (∀ m > n, (∀ i, n < i → i < m → ρ.schedule i ≠ .work) → ρ.schedule m = .work →
        (ρ.state (m + 1)).executor.current = some (t, next) ∧
          (ρ.state (m + 1)).executor.Stopped) ∧
      ∀ m > n, ∀ t' j, ρ.service.Submits m t' j → (∀ b j', ¬ρ.service.Begins b t' j') ∧
        ∀ i, ρ.service.messages i t' = if m < i then [.error .executorStopped] else []) ∧
    (ρ.Fair → ∀ m t j, ρ.service.Accepts m t j → ∃ e, ∀ n > e, ρ.service.Settled n t j) ∧
    (∀ n (k : Nat), (ρ.state n).calls[k]? = some .returned → (ρ.state n).executor.Stopped) ∧
    (∀ n, (ρ.state n).executor.accepting = false → ∀ m,
      ((ρ.quiet n).state m).executor.takeHandle = (ρ.state m).executor.takeHandle) ∧
    ∀ n, (ρ.state n).executor.Stopped →
      (∀ m, ((ρ.quiet n).state m).executor = (ρ.state m).executor) ∧
      (∀ (k : Nat) call, (ρ.state n).calls[k]? = some call → call ≠ .await → ∀ m ≥ n, ∀ m' > m,
        ρ.schedule m = .proceed k → ρ.schedule m' = .proceed k →
        (ρ.state (m' + 1)).calls[k]? = some .returned) ∧
      ∀ t next, (ρ.state n).executor.current = some (t, .stop next) → ρ.schedule n = .work →
        (ρ.state (n + 1)).executor = (ρ.state n).executor ∨
        (ρ.state (n + 1)).executor = { (ρ.state n).executor with current := some (t, next) } := by
  refine ⟨?_, fun h k hfair htakes => htakes.exists_returned hfair, ?_,
    fun hfair m t j => hfair.service.settled, ?_, fun n => takeHandle_quiet, ?_⟩
  · intro h k n htakes hn hreturned
    have hended := htakes.ended hn hreturned
    refine ⟨fun m t j hacc => ?_, fun m hm => ?_⟩
    · rw [← ρ.executor_service] at hended
      exact hacc.settled_of_ended hended
    · have hended' := ended_of_le hended hm
      rw [← ρ.executor_service] at hended' ⊢
      exact (Service.drained_of_ended hended').idle
  · intro n t next hstops
    refine ⟨fun m hm => hstops.goes_on hm, fun m hm t' j hsubmits => ?_⟩
    have hrefuses := hstops.refuses hsubmits hm
    exact ⟨fun b j' => hrefuses.not_begins, hrefuses.messages_eq⟩
  · intro n k hreturned
    have hmem := List.mem_of_getElem? hreturned
    exact ⟨(ρ.sound n).sender _ hmem nofun, (ρ.sound n).handle _ hmem (Or.inr rfl)⟩
  · intro n hstopped
    refine ⟨executor_quiet hstopped, fun k call hcall hne m hm m' hm' => ?_, fun t next => ?_⟩
    · exact returned_of_two_steps hstopped.taken hne hcall hm hm'
    · exact fun hcurrent hworks => executor_work_of_stopped hstopped hworks hcurrent

/-! ## A run -/

/-- The run with these events, after which the executor's thread works, requests are replied to and
the first call goes on by turns. -/
def ofEvents (a : A) (events : List (Event V Q A R)) : Run V Q A R where
  lcore := .main 0
  schedule n := events[n]?.getD
    (if n % 3 = 0 then .work else if n % 3 = 1 then .resume a else .proceed 0)

theorem schedule_ofEvents {a : A} {events : List (Event V Q A R)} (hn : events.length ≤ n) :
    (ofEvents a events).schedule n =
      if n % 3 = 0 then .work else if n % 3 = 1 then .resume a else .proceed 0 := by
  simp [ofEvents, List.getElem?_eq_none hn]

theorem fair_ofEvents (a : A) (events : List (Event V Q A R)) : (ofEvents a events).Fair where
  works n := by
    refine ⟨3 * (n + events.length), by omega, ?_⟩
    rw [schedule_ofEvents (by omega), if_pos (by omega)]
  replies n ticket q next _ := by
    refine ⟨3 * (n + events.length) + 1, by omega, a, ?_⟩
    rw [schedule_ofEvents (by omega), if_neg (by omega), if_pos (by omega)]

/-- The first job stops the executor. While its call stands between its two steps, another thread
calls as well and takes the handle. A third job is submitted then, and another call is made when the
first one has returned. -/
def overlap : Run Nat Unit Nat Nat := ofEvents 0 [
  .submit (.stop (.answer 1)), .submit (.answer 9), .work, .work, .call, .proceed 0, .proceed 0,
  .work, .submit (.answer 5), .work, .work, .work, .work, .proceed 0, .call, .proceed 1,
  .proceed 1]

/-- In `overlap` the call that takes the handle returns when the second job is settled, the call of
the first job is not kept waiting, the third job is refused, and the last call changes nothing. -/
theorem stop_drains_overlap :
    overlap.service.Settled 14 1 (.answer 9) ∧ (overlap.state 14).executor.current = none ∧
    (∃ n > 6, (overlap.state n).calls[0]? = some .returned) ∧
    (overlap.state 8).executor.current = some (0, .answer 1) ∧
    overlap.service.messages 9 2 = [.error .executorStopped] ∧
    (∃ e, ∀ n > e, overlap.service.Settled n 0 (.stop (.answer 1))) ∧
    (overlap.state 14).executor.Stopped ∧
    ((overlap.quiet 7).state 17).executor.takeHandle = (overlap.state 17).executor.takeHandle ∧
    ((overlap.quiet 14).state 17).executor = (overlap.state 17).executor ∧
    (overlap.state 17).calls[1]? = some .returned ∧
    ((overlap.state 8).executor = (overlap.state 7).executor ∨
      (overlap.state 8).executor =
        { (overlap.state 7).executor with current := some (0, .answer 1) }) := by
  have hclosed : ∀ m ≤ 3, ∀ i < m, ¬overlap.service.HangsUp i := fun m hm => by
    rw [← Service.accepting_iff, overlap.executor_service]
    interval_cases m <;> rfl
  have hfirst : overlap.service.Accepts 0 0 (.stop (.answer 1)) :=
    ⟨⟨rfl, rfl⟩, hclosed 0 (by decide)⟩
  have hsecond : overlap.service.Accepts 1 1 (.answer 9) := ⟨⟨rfl, rfl⟩, hclosed 1 (by decide)⟩
  have hsubmits : overlap.service.Submits 8 2 (.answer 5) := ⟨rfl, rfl⟩
  have hfair : overlap.Fair := fair_ofEvents 0 _
  have htakes : overlap.TakesHandle 6 0 := ⟨rfl, rfl, rfl⟩
  have hgoes : ∀ n, ∃ m ≥ n, overlap.schedule m = .proceed 0 := by
    intro n
    refine ⟨3 * (n + 17) + 2, by omega, ?_⟩
    have hlength : 17 ≤ 3 * (n + 17) + 2 := by omega
    rw [overlap, schedule_ofEvents hlength, if_neg (by omega), if_neg (by omega)]
  have hstops : overlap.StopsWithin 3 0 (.answer 1) := ⟨rfl, rfl, rfl⟩
  have hnone : ∀ i, 3 < i → i < 7 → overlap.schedule i ≠ .work := by
    intro i hi hi'
    interval_cases i <;> nofun
  obtain ⟨hdrains, hreturns, hwithin, hsettled, hstopped, hclosed', hfurther⟩ :=
    stop_drains overlap
  obtain ⟨hall, hidle⟩ := hdrains 6 0 14 htakes (by decide) rfl
  obtain ⟨hgoes_on, hrefused⟩ := hwithin 3 0 _ hstops
  obtain ⟨-, htwo, -⟩ := hfurther 15 (hstopped 15 0 rfl)
  refine ⟨hall 1 1 _ hsecond, hidle 14 (Nat.le_refl 14), hreturns 6 0 hfair htakes hgoes,
    (hgoes_on 7 (by decide) hnone rfl).1, (hrefused 8 (by decide) 2 _ hsubmits).2 9,
    hsettled hfair 0 0 _ hfirst, hstopped 14 0 rfl, hclosed' 7 rfl 17,
    (hfurther 14 (hstopped 14 0 rfl)).1 17,
    htwo 1 .hangUp rfl nofun 15 (Nat.le_refl 15) 16 (by decide) rfl rfl,
    (hfurther 7 ⟨rfl, rfl⟩).2.2 0 _ rfl rfl⟩

end Run

end Closing

end CoreFleet
