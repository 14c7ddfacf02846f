import CoreFleet.Proofs.Executor.Delivery

/-!
# Jobs as a fold

`Job.run` carries a job out alone. It needs the context value and the replies to the requests of
the job, and gives the reply of the job and what it leaves of both. `Job.runAll` does this with one
job after another. Neither knows of a queue, of other threads or of a stop.

The executor computes the same. At any time the jobs that were accepted, run one after another from
no context value, come to the replies that were sent so far, followed by those that the rest comes
to from the present context value (`runAll_accepted`). This holds at first, and one event carries
it on (`Executor.runAll_react`).

A job that ends in a panic leaves the context value as it is at that point. With an answer in place
of the panic (`Job.mend`) the executor goes through the same states, but for what is left of this
job and for its reply (`executor_mend`).

`jobs_fold` is the account of an executor that follows from both.
-/

namespace CoreFleet

variable {V Q A R : Type}

/-! ## The reference interpreter -/

/-- What jobs find when they run : the context value, and the replies to their requests. -/
structure Context (V A : Type) where
  value : Option V
  inbox : List A

namespace Job

/-- Carries a job out, unless there are too few replies to its requests. -/
def run : Job V Q A R → Context V A → Option (Except Error R × Context V A)
  | answer r, c => some (.ok r, c)
  | crash (.text message), c => some (.error (.jobPanic ("panicked: " ++ message)), c)
  | crash .other, c => some (.error (.jobPanic "panicked"), c)
  | look next, c => (next c.value).run c
  | put value next, c => next.run { c with value }
  | stop next, c => next.run c
  | ask _ _, ⟨_, []⟩ => none
  | ask _ next, ⟨value, a :: inbox⟩ => (next a).run ⟨value, inbox⟩

/-- Puts replies before those that jobs come to. -/
def prepend (rs : List (Nat × Except Error R)) :
    List (Nat × Except Error R) × Context V A → List (Nat × Except Error R) × Context V A :=
  Prod.map (rs ++ ·) id

/-- Carries jobs out one after another, and gives their replies under their tickets. -/
def runAll : List (Nat × Job V Q A R) → Context V A →
    Option (List (Nat × Except Error R) × Context V A)
  | [], c => some ([], c)
  | (ticket, job) :: jobs, c =>
    (job.run c).bind fun (r, c) => (runAll jobs c).map (prepend [(ticket, r)])

theorem fst_prepend (rs : List (Nat × Except Error R))
    (p : List (Nat × Except Error R) × Context V A) : (prepend rs p).1 = rs ++ p.1 := rfl

theorem snd_prepend (rs : List (Nat × Except Error R))
    (p : List (Nat × Except Error R) × Context V A) : (prepend rs p).2 = p.2 := rfl

theorem prepend_nil :
    prepend (V := V) (A := A) ([] : List (Nat × Except Error R)) = id := rfl

@[simp] theorem prepend_comp (rs rs' : List (Nat × Except Error R)) :
    prepend (V := V) (A := A) rs ∘ prepend rs' = prepend (rs ++ rs') := by
  funext p
  exact Prod.ext (List.append_assoc rs rs' p.1).symm rfl

/-- Jobs after others find what these leave. -/
theorem runAll_append (jobs jobs' : List (Nat × Job V Q A R)) (c : Context V A) :
    runAll (jobs ++ jobs') c =
      (runAll jobs c).bind fun p => (runAll jobs' p.2).map (prepend p.1) := by
  induction jobs generalizing c with
  | nil => simp [runAll, prepend_nil]
  | cons head jobs ih =>
    obtain ⟨ticket, job⟩ := head
    cases hrun : job.run c with
    | none => simp [runAll, hrun]
    | some p =>
      cases hrest : runAll jobs p.2 <;>
        simp [runAll, hrun, ih, hrest, fst_prepend, snd_prepend]

/-- Jobs that come to replies first, and then others. -/
theorem runAll_append_of_eq_map {jobs jobs' left : List (Nat × Job V Q A R)}
    {rs : List (Nat × Except Error R)} {c c' : Context V A}
    (h : runAll jobs c = (runAll left c').map (prepend rs)) :
    runAll (jobs ++ jobs') c = (runAll (left ++ jobs') c').map (prepend rs) := by
  rw [runAll_append, runAll_append, h]
  cases runAll left c' <;> simp [fst_prepend, snd_prepend]

end Job

open Job (prepend prepend_nil runAll runAll_append_of_eq_map)

namespace Executor

/-- The reply to its request that the running job is handed at an event. -/
def hears? (e : Executor V Q A R) : Event V Q A R → Option A
  | .resume a => e.request?.map fun _ => a
  | _ => none

/-- An event carries the running job on as the reference interpreter does, or begins the next job,
or does neither. -/
theorem runAll_react (e : Executor V Q A R) (ev : Event V Q A R) (inbox : List A) :
    runAll (e.current.toList ++ (e.begins? ev).toList) ⟨e.value, (e.hears? ev).toList ++ inbox⟩ =
      (runAll (e.react ev).current.toList ⟨(e.react ev).value, inbox⟩).map
        (prepend (e.ends? ev).toList) := by
  cases ev with
  | submit job => simp [react_submit, begins?, hears?, ends?, prepend_nil]
  | step =>
    cases hcurrent : e.current with
    | none => simp [react_step_idle hcurrent, begins?, hears?, ends?, hcurrent, prepend_nil]
    | some c =>
      obtain ⟨ticket, job⟩ := c
      cases job with
      | crash p =>
        cases p <;> simp [react, step?, reply_eq, begins?, hears?, ends?, hcurrent, Job.reply?,
          runAll, Job.run, Payload.describe]
      | _ => simp [react, step?, reply_eq, close, begins?, hears?, ends?, hcurrent, Job.reply?,
          runAll, Job.run, prepend_nil]
  | resume a =>
    cases hcurrent : e.current with
    | none => simp [react_resume, begins?, hears?, ends?, request?, hcurrent, prepend_nil]
    | some c =>
      obtain ⟨ticket, job⟩ := c
      cases job <;> simp [react_resume, begins?, hears?, ends?, request?, hcurrent, Job.after,
        runAll, Job.run, prepend_nil]
  | abandon ticket => simp [react_abandon, begins?, hears?, ends?, prepend_nil]
  | hangUp | takeHandle | pause =>
    simp [react, hangUp, takeHandle, begins?, hears?, ends?, prepend_nil]

end Executor

namespace Service

variable {σ : Service V Q A R} {n m m' b b' e ticket : Nat} {job : Job V Q A R}
  {r : Except Error R}

/-! ## What the executor computes -/

/-- The replies to their requests that jobs were handed at the first `n` events. -/
def heard (σ : Service V Q A R) (n : Nat) : List A :=
  (List.range n).filterMap fun m => (σ.executor m).hears? (σ.schedule m)

/-- The replies that jobs came to at the first `n` events, with their tickets. -/
def answers (σ : Service V Q A R) (n : Nat) : List (Nat × Except Error R) :=
  (List.range n).filterMap fun m => (σ.executor m).ends? (σ.schedule m)

/-- The jobs that were begun come to the replies that were sent, and then to that of the running
job. -/
theorem runAll_begun (σ : Service V Q A R) : ∀ (n : Nat) (inbox : List A),
    runAll (σ.begun n) ⟨none, σ.heard n ++ inbox⟩ =
      (runAll (σ.executor n).current.toList ⟨(σ.executor n).value, inbox⟩).map
        (prepend (σ.answers n))
  | 0, inbox => rfl
  | n + 1, inbox => by
    have hheard : σ.heard (n + 1) =
        σ.heard n ++ ((σ.executor n).hears? (σ.schedule n)).toList := filterMap_range_succ _ n
    have hanswers : σ.answers (n + 1) =
        σ.answers n ++ ((σ.executor n).ends? (σ.schedule n)).toList := filterMap_range_succ _ n
    rw [begun_succ, hheard, List.append_assoc,
      runAll_append_of_eq_map (σ.runAll_begun n _), Executor.runAll_react, Option.map_map,
      Job.prepend_comp, ← hanswers]
    rfl

/-- The accepted jobs, run one after another, come to the replies that were sent, and then to those
of the running job and of the jobs in the queue. -/
theorem runAll_accepted (σ : Service V Q A R) (n : Nat) (inbox : List A) :
    runAll (σ.accepted n) ⟨none, σ.heard n ++ inbox⟩ =
      (runAll ((σ.executor n).current.toList ++ (σ.executor n).queue)
        ⟨(σ.executor n).value, inbox⟩).map (prepend (σ.answers n)) := by
  rw [accepted_eq, runAll_append_of_eq_map (σ.runAll_begun n inbox)]

/-- When no job runs, the jobs that were begun have come to their replies and to the context
value. -/
theorem runAll_begun_of_idle (h : (σ.executor n).current = none) (inbox : List A) :
    runAll (σ.begun n) ⟨none, σ.heard n ++ inbox⟩ =
      some (σ.answers n, ⟨(σ.executor n).value, inbox⟩) := by
  rw [runAll_begun, h]
  simp [runAll, prepend]

/-- Nothing is begun while a job is carried out. -/
theorem Executes.begun_eq (h : σ.Executes b e ticket job r) :
    σ.begun (e + 1) = σ.begun b ++ [(ticket, job)] := by
  have hbegun : ∀ n ≥ b + 1, n ≤ e + 1 → σ.begun n = σ.begun b ++ [(ticket, job)] := by
    intro n hn
    induction n, hn using Nat.le_induction with
    | base =>
      intro _
      rw [begun_succ, begins_iff.2 h.begins]
      rfl
    | succ n hn ih =>
      intro hne
      have hcurrent := h.runs n hn (Nat.le_of_succ_le_succ hne)
      rw [begun_succ, Executor.begins?_of_some hcurrent, ih (by omega)]
      simp
  exact hbegun (e + 1) (Nat.succ_le_succ h.lt.le) (Nat.le_refl _)

theorem Executes.answers_eq (h : σ.Executes b e ticket job r) :
    σ.answers (e + 1) = σ.answers e ++ [(ticket, r)] := by
  have hends : (σ.executor e).ends? (σ.schedule e) = some (ticket, r) :=
    (ends?_eq_some (h.runs e h.lt (Nat.le_refl e))).2 ⟨h.ends.1, r, h.ends.2, rfl⟩
  rw [answers, filterMap_range_succ, hends]
  rfl

/-- A job that is carried out comes to the reply and leaves the context value that it comes to and
leaves alone, if it finds the same context value and is handed the same replies. -/
theorem Executes.run_eq (h : σ.Executes b e ticket job r) :
    ∃ inbox, σ.heard (e + 1) = σ.heard b ++ inbox ∧
      job.run ⟨(σ.executor b).value, inbox⟩ = some (r, ⟨(σ.executor (e + 1)).value, []⟩) := by
  obtain ⟨inbox, hheard⟩ : σ.heard b <+: σ.heard (e + 1) :=
    filterMap_range_prefix _ (Nat.le_succ_of_le h.lt.le)
  refine ⟨inbox, hheard.symm, ?_⟩
  have hafter := runAll_begun_of_idle h.current_succ []
  rw [h.begun_eq, List.append_nil, ← hheard, Job.runAll_append,
    runAll_begun_of_idle h.begins.1] at hafter
  cases hrun : job.run ⟨(σ.executor b).value, inbox⟩ with
  | none => simp [runAll, hrun] at hafter
  | some p =>
    obtain ⟨r', c⟩ := p
    simp only [Option.bind_some, runAll, hrun, Option.map_some, Option.some.injEq, prepend,
      Prod.map_apply, id_eq, List.append_nil, Prod.mk.injEq] at hafter
    obtain ⟨hanswers, rfl⟩ := hafter
    rw [h.answers_eq] at hanswers
    obtain ⟨-, hlast⟩ := List.append_inj' hanswers rfl
    simp at hlast
    rw [hlast]

/-- A job comes after those that were accepted before it, and after no others. -/
theorem Begins.begun_eq (h : σ.Begins b ticket job) (hacc : σ.Accepts m ticket job) :
    σ.begun b = σ.accepted m := by
  obtain ⟨m', hm', hacc'⟩ := h.exists_accepts
  obtain ⟨rfl, -⟩ := hacc.1.unique hacc'.1
  obtain ⟨later, hlater⟩ := σ.accepted_prefix (Nat.succ_le_succ hm'.le)
  rw [accepted_succ, accepts_iff.2 hacc, Option.toList_some, List.append_assoc,
    List.singleton_append] at hlater
  have hsorted := σ.pairwise_accepted (b + 1)
  rw [← hlater] at hsorted
  obtain ⟨-, htail, hbefore⟩ := List.pairwise_append.1 hsorted
  have hearlier : (ticket, job) ∉ σ.accepted m := fun hmem =>
    Nat.lt_irrefl ticket (hbefore _ hmem _ List.mem_cons_self)
  have hafter : (ticket, job) ∉ later := fun hmem =>
    Nat.lt_irrefl ticket ((List.pairwise_cons.1 htail).1 _ hmem)
  rw [h.accepted_eq] at hlater
  exact ((List.append_cons_inj_of_notMem hearlier hafter).1 hlater).1.symm

/-- The end of a job, a panic or not, leaves the context value as it is. -/
theorem Executes.value_eq (h : σ.Executes b e ticket job r) :
    (σ.executor (e + 1)).value = (σ.executor e).value := by
  have hcurrent := h.runs e h.lt (Nat.le_refl e)
  obtain ⟨hstep, hreply⟩ := h.ends
  rw [executor, hstep]
  cases hleft : σ.remainder b job e with
  | answer | crash => simp [Executor.react, Executor.step?, hcurrent, hleft, Executor.reply_eq]
  | look | put | stop | ask => simp [hleft, Job.reply?] at hreply

/-- A job whose reply is a panic has come to the panic, and the reply has its message. -/
theorem Executes.crash_cases {text : String}
    (h : σ.Executes b e ticket job (.error (.jobPanic text))) :
    (∃ message, σ.remainder b job e = .crash (.text message) ∧ text = "panicked: " ++ message) ∨
      σ.remainder b job e = .crash .other ∧ text = "panicked" := by
  have hreply := h.ends.2
  cases hleft : σ.remainder b job e with
  | crash p =>
    rw [hleft] at hreply
    cases p <;> simp_all [Job.reply?, Payload.describe]
  | answer | look | put | stop | ask => simp [hleft, Job.reply?] at hreply

end Service

/-! ## Answers in place of panics -/

/-- The job with this answer, if there is one, in place of every panic. -/
def Job.mend (fix : Option R) : Job V Q A R → Job V Q A R
  | answer r => answer r
  | crash p => fix.elim (crash p) answer
  | look next => look fun v => (next v).mend fix
  | put value next => put value (next.mend fix)
  | stop next => stop (next.mend fix)
  | ask q next => ask q fun a => (next a).mend fix

/-- The submission of a mended job in place of that of the job. -/
def Executor.Event.mend (fix : Option R) : Event V Q A R → Event V Q A R
  | submit job => submit (job.mend fix)
  | ev => ev

/-- The reply with this answer, if there is one, in place of a panic. -/
def mendReply (fix : Option R) : Except Error R → Except Error R
  | .error (.jobPanic text) => fix.elim (.error (.jobPanic text)) .ok
  | r => r

@[simp] theorem Job.mend_none (job : Job V Q A R) : job.mend none = job := by
  induction job with
  | answer | crash => rfl
  | look next ih => exact congrArg look (funext ih)
  | put value next ih => exact congrArg (put value) ih
  | stop next ih => exact congrArg stop ih
  | ask q next ih => exact congrArg (ask q) (funext ih)

@[simp] theorem mendReply_none : mendReply (none : Option R) = id := by
  funext r
  unfold mendReply
  split <;> rfl

theorem Job.reply?_mend (fix : Option R) (job : Job V Q A R) :
    (job.mend fix).reply? = job.reply?.map (mendReply fix) := by
  cases job with
  | crash p => cases fix <;> rfl
  | _ => rfl

/-- What is left of a mended job is what is left of the job, mended. -/
theorem Job.after_mend (fix fix' : Option R) (value : Option V) (job : Job V Q A R)
    (ev : Executor.Event V Q A R) :
    (job.mend fix).after value (ev.mend fix') = (job.after value ev).mend fix := by
  cases job with
  | crash p => cases fix <;> cases ev <;> rfl
  | _ => cases ev <;> rfl

namespace Executor

/-- The executor with the jobs of some tickets mended, and their replies. -/
def mend (fix : Nat → Option R) (e : Executor V Q A R) : Executor V Q A R :=
  { e with
    queue := e.queue.map fun c => (c.1, c.2.mend (fix c.1))
    current := e.current.map fun c => (c.1, c.2.mend (fix c.1))
    replies := e.replies.map fun m => (m.1, mendReply (fix m.1) m.2) }

/-- A mended executor goes on as before. -/
theorem react_mend (fix : Nat → Option R) (e : Executor V Q A R) (ev : Event V Q A R) :
    (e.mend fix).react (ev.mend (fix e.issued)) = (e.react ev).mend fix := by
  obtain ⟨_, accepting, _, queue, current, _, issued, _, abandoned, ended⟩ := e
  cases ev with
  | submit job =>
    cases accepting with
    | true => simp [mend, react, Event.mend, submit]
    | false => by_cases hdropped : issued ∈ abandoned <;>
        simp [mend, react, Event.mend, submit, reply, hdropped, mendReply]
  | step =>
    cases current with
    | none =>
      cases queue with
      | nil => cases accepting <;> cases ended <;> rfl
      | cons => rfl
    | some c =>
      obtain ⟨ticket, job⟩ := c
      cases job with
      | answer r => by_cases hdropped : ticket ∈ abandoned <;>
          simp [mend, react, Event.mend, step?, Job.mend, reply, hdropped, mendReply]
      | crash p =>
        -- The mended job has come to an answer here, and the other one to a panic.
        by_cases hdropped : ticket ∈ abandoned <;> cases hfix : fix ticket <;>
          simp [mend, react, Event.mend, step?, Job.mend, hfix, reply, hdropped, mendReply]
      | _ => rfl
  | resume a =>
    cases current with
    | none => rfl
    | some c =>
      obtain ⟨ticket, job⟩ := c
      cases job with
      | crash p =>
        cases hfix : fix ticket <;> simp [mend, react, Event.mend, resume, Job.mend, hfix]
      | _ => rfl
  | abandon ticket => simp only [Event.mend, react_abandon, mend]
  | hangUp | takeHandle | pause => rfl

end Executor

namespace Service

/-- The service in which the jobs of some tickets are mended. -/
def mend (fix : Nat → Option R) (σ : Service V Q A R) : Service V Q A R where
  lcore := σ.lcore
  schedule n := (σ.schedule n).mend (fix (σ.executor n).issued)

variable {σ : Service V Q A R} {n m b e ticket : Nat} {job : Job V Q A R} {r : Except Error R}

/-- The executor goes through the same states, but for the mended jobs and their replies. -/
theorem executor_mend (fix : Nat → Option R) (σ : Service V Q A R) : ∀ n,
    (σ.mend fix).executor n = (σ.executor n).mend fix
  | 0 => rfl
  | n + 1 => by
    rw [executor, executor, σ.executor_mend fix n, mend, Executor.react_mend]

theorem value_mend (fix : Nat → Option R) (σ : Service V Q A R) (n : Nat) :
    ((σ.mend fix).executor n).value = (σ.executor n).value := by
  rw [executor_mend]
  rfl

theorem remainder_mend (fix : Nat → Option R) (σ : Service V Q A R) (b ticket : Nat)
    (job : Job V Q A R) : ∀ n, (σ.mend fix).remainder b (job.mend (fix ticket)) n =
      (σ.remainder b job n).mend (fix ticket)
  | 0 => rfl
  | n + 1 => by
    rw [remainder, remainder, σ.remainder_mend fix b ticket job n, value_mend, mend,
      Job.after_mend]
    split <;> rfl

/-- A mended job is carried out when the job was, and comes to the mended reply. -/
theorem Executes.mend (h : σ.Executes b e ticket job r) (fix : Nat → Option R) :
    (σ.mend fix).Executes b e ticket (job.mend (fix ticket)) (mendReply (fix ticket) r) := by
  have hcurrent {n : Nat} {j : Job V Q A R} (hj : (σ.executor n).current = some (ticket, j)) :
      ((σ.mend fix).executor n).current = some (ticket, j.mend (fix ticket)) := by
    rw [executor_mend, Executor.mend, hj]
    rfl
  refine ⟨⟨?_, hcurrent h.begins.2⟩, fun n hbn hne => ?_, h.lt, ?_, ?_⟩
  · rw [executor_mend, Executor.mend, h.begins.1]
    rfl
  · rw [remainder_mend]
    exact hcurrent (h.runs n hbn hne)
  · simp only [Service.mend, h.ends.1, Executor.Event.mend]
  · rw [remainder_mend, Job.reply?_mend, h.ends.2]
    rfl

theorem messages_mend (fix : Nat → Option R) (σ : Service V Q A R) (n ticket : Nat) :
    (σ.mend fix).messages n ticket = (σ.messages n ticket).map (mendReply (fix ticket)) := by
  rw [messages, messages, executor_mend, Executor.mend, List.filter_map, List.map_map,
    List.map_map]
  refine List.map_congr_left fun m hm => ?_
  obtain rfl : m.1 = ticket := by simpa using (List.mem_filter.1 hm).2
  rfl

/-! ## The account of an executor -/

/-- At any time the accepted jobs, run one after another from no context value, come to the replies
that were sent and then to what the rest comes to from the present context value. So they come to
the replies and to the context value when nothing is left to do, in particular when the executor's
thread has ended. A job finds the context value as those accepted before it leave it, and comes to
the reply that its receiver gets and to the context value after it. A panic leaves the context
value as it is at that point, and the reply tells of it. With answers in place of panics every
other job comes to the same reply, and the context value is the same at any time. -/
theorem jobs_fold (σ : Service V Q A R) :
    (∀ n inbox, runAll (σ.accepted n) ⟨none, σ.heard n ++ inbox⟩ =
      (runAll ((σ.executor n).current.toList ++ (σ.executor n).queue)
        ⟨(σ.executor n).value, inbox⟩).map (prepend (σ.answers n))) ∧
    (∀ n, (σ.executor n).current = none → (σ.executor n).queue = [] →
      runAll (σ.accepted n) ⟨none, σ.heard n⟩ =
        some (σ.answers n, ⟨(σ.executor n).value, []⟩)) ∧
    (∀ n, (σ.executor n).ended = true →
      (σ.executor n).current = none ∧ (σ.executor n).queue = []) ∧
    (∀ m b e t j r, σ.Accepts m t j → σ.Executes b e t j r →
      ∃ inbox, σ.heard (e + 1) = σ.heard b ++ inbox ∧
        runAll (σ.accepted m) ⟨none, σ.heard b⟩ =
          some (σ.answers b, ⟨(σ.executor b).value, []⟩) ∧
        j.run ⟨(σ.executor b).value, inbox⟩ = some (r, ⟨(σ.executor (e + 1)).value, []⟩) ∧
        ∀ n > e, (∀ k < e, ¬σ.Drops k t) → σ.messages n t = [r]) ∧
    (σ.Fair → ∀ m t j, σ.Accepts m t j → ∃ b e r, σ.Executes b e t j r) ∧
    (∀ b e t j text, σ.Executes b e t j (.error (.jobPanic text)) →
      (σ.executor (e + 1)).value = (σ.executor e).value ∧
      ((∃ message, σ.remainder b j e = .crash (.text message) ∧
          text = "panicked: " ++ message) ∨
        σ.remainder b j e = .crash .other ∧ text = "panicked")) ∧
    (∀ b e t j r p, σ.Executes b e t j r → σ.remainder b j e = .crash p →
      ∃ text, r = .error (.jobPanic text)) ∧
    ∀ fix : Nat → Option R,
      (∀ n, ((σ.mend fix).executor n).value = (σ.executor n).value) ∧
      (∀ b e t j r, fix t = none → σ.Executes b e t j r → (σ.mend fix).Executes b e t j r) ∧
      (∀ b e t j text r, fix t = some r → σ.Executes b e t j (.error (.jobPanic text)) →
        (σ.mend fix).Executes b e t (j.mend (some r)) (.ok r)) ∧
      ∀ n t, fix t = none → (σ.mend fix).messages n t = σ.messages n t := by
  refine ⟨σ.runAll_accepted, fun n hidle hempty => ?_, fun n hended => ?_, ?_, ?_,
    fun b e t j text h => ⟨h.value_eq, h.crash_cases⟩, ?_,
    fun fix => ⟨σ.value_mend fix, ?_, ?_, ?_⟩⟩
  · have hbegun := runAll_begun_of_idle hidle []
    rwa [List.append_nil, ← List.append_nil (σ.begun n), ← hempty, ← accepted_eq] at hbegun
  · have hdrained := drained_of_ended hended
    exact ⟨hdrained.idle, hdrained.empty⟩
  · intro m b e t j r hacc h
    obtain ⟨inbox, hheard, hrun⟩ := h.run_eq
    have hbefore := runAll_begun_of_idle h.begins.1 []
    rw [List.append_nil, h.begins.begun_eq hacc] at hbefore
    refine ⟨inbox, hheard, hbefore, hrun, fun n hn hkept => ?_⟩
    have hheld : t ∉ (σ.executor e).abandoned := by
      rw [mem_abandoned]
      rintro ⟨k, hk, hdrops⟩
      exact hkept k hk hdrops
    rw [hacc.messages_eq h n, if_pos ⟨hn, hheld⟩]
  · intro hfair m t j hacc
    obtain ⟨b, hbegins⟩ := hfair.begins_of_accepts hacc
    obtain ⟨e, r, hexec⟩ := hfair.exists_executes hbegins
    exact ⟨b, e, r, hexec⟩
  · intro b e t j r p h hcrash
    have hreply := h.ends.2
    rw [hcrash] at hreply
    exact ⟨_, (Option.some.inj hreply).symm⟩
  · intro b e t j r hfix h
    simpa [hfix] using h.mend fix
  · intro b e t j text r hfix h
    simpa [hfix, mendReply] using h.mend fix
  · intro n t hfix
    simp [messages_mend, hfix]

/-- Three jobs. The first one and the second one end in a panic after they set the context value,
the third one stops the executor and makes a request. -/
def stumble : Service Nat Unit Nat Nat := ofEvents 0 [
  .submit (.put (some 1) (.crash (.text "boom"))),
  .submit (.look fun v => .put (v.map (· + 1)) (.crash .other)),
  .submit (.stop (.ask () fun a => .look fun v => .answer (v.getD 0 + a))),
  .step, .step, .step, .step, .step, .step, .step, .step, .step, .resume 7, .step, .step, .step]

/-- In `stumble` the third job finds what the second one left of what the first one left, and
answers the same when the first one returns 5. -/
theorem jobs_fold_stumble :
    runAll (stumble.accepted 16) ⟨none, [7]⟩ =
      some ([(0, .error (.jobPanic "panicked: boom")), (1, .error (.jobPanic "panicked")),
        (2, .ok 9)], ⟨some 2, []⟩) ∧
    runAll (stumble.accepted 1) ⟨none, []⟩ =
      some ([(0, .error (.jobPanic "panicked: boom"))], ⟨some 1, []⟩) ∧
    stumble.messages 10 1 = [.error (.jobPanic "panicked")] ∧
    (∃ b e r, stumble.Executes b e 1
      (.look fun v => .put (v.map (· + 1)) (.crash .other)) r) ∧
    (stumble.executor 10).value = (stumble.executor 9).value ∧
    ∃ σ : Service Nat Unit Nat Nat, σ = stumble.mend (fun t => if t = 0 then some 5 else none) ∧
      σ.Executes 3 5 0 (.put (some 1) (.answer 5)) (.ok 5) ∧
      σ.Executes 6 9 1 (.look fun v => .put (v.map (· + 1)) (.crash .other))
        (.error (.jobPanic "panicked")) ∧
      σ.messages 15 2 = [.ok 9] := by
  have hfirst : stumble.Executes 3 5 0 (.put (some 1) (.crash (.text "boom")))
      (.error (.jobPanic "panicked: boom")) := by
    refine ⟨⟨rfl, rfl⟩, fun n hbn hne => ?_, by decide, rfl, rfl⟩
    interval_cases n <;> rfl
  have hsecond : stumble.Executes 6 9 1 (.look fun v => .put (v.map (· + 1)) (.crash .other))
      (.error (.jobPanic "panicked")) := by
    refine ⟨⟨rfl, rfl⟩, fun n hbn hne => ?_, by decide, rfl, rfl⟩
    interval_cases n <;> rfl
  have haccepts : stumble.Accepts 1 1 (.look fun v => .put (v.map (· + 1)) (.crash .other)) :=
    ⟨⟨rfl, rfl⟩, (stumble.accepting_iff 1).1 rfl⟩
  have hkept : ∀ k < 9, ¬stumble.Drops k 1 := by
    rintro k hk ⟨hdrops, -⟩
    interval_cases k <;> cases hdrops
  obtain ⟨-, hall, hended, hone, hfair, hpanic, -, hmend⟩ := jobs_fold stumble
  obtain ⟨hidle, hempty⟩ := hended 16 rfl
  obtain ⟨inbox, -, hbefore, -, hmessages⟩ := hone 1 6 9 1 _ _ haccepts hsecond
  obtain ⟨-, hothers, hmended, hsame⟩ := hmend fun t => if t = 0 then some 5 else none
  refine ⟨hall 16 hidle hempty, hbefore, hmessages 10 (by decide) hkept,
    hfair (fair_ofEvents 0 _) 1 1 _ haccepts, (hpanic 6 9 1 _ _ hsecond).1, _, rfl,
    hmended 3 5 0 _ _ 5 rfl hfirst, hothers 6 9 1 _ _ rfl hsecond, hsame 15 2 rfl⟩

end Service

end CoreFleet
