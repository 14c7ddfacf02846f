import CoreFleet.Proofs.Registry.Gate
import CoreFleet.Proofs.Registry.Refusal

/-!
# A fleet that is stopped and started again

After a stop the workers come back one by one, in any order : each reports the end of its run loop,
and one that reports a failure is reset at some later time (`Registry.Recovers`). Then the fleet can
be started, and is what it was before the stop (`restart_restores`).

`Owes` says of one worker what is still to come, among the operations that are left, and which slot
it has meanwhile. An operation that is about the worker pays what is due and any other one leaves
the worker alone (`Owes.step`), so that in the end nothing is due and the worker is idle
(`Owes.performAll`). Nothing is said about the order in which different workers come back, because
what is due of one worker never depends on another.
-/

namespace CoreFleet

/-- The worker runs and nothing has happened to it. -/
structure Slot.Fit (s : Slot) : Prop where
  running : s.state = .running
  flag : s.flag = true
  clean : s.error = none
  present : s.retired = false

/-- The operation reports the end of the run loop of the worker at `i`. -/
def Operation.reports (i : Nat) : Operation → Bool
  | finish k _ => k = i
  | _ => false

namespace Registry

variable {r : Registry} {ops : List Operation} {op : Operation} {i id : Nat} {s t : Slot}

/-- The registry after these operations, one after another. -/
def performAll (ops : List Operation) (r : Registry) : Registry :=
  ops.foldl (fun r op => (op.perform r).after) r

/-- The operations bring all workers back that are stopping : they are reports and resets, every
worker reports once, only a worker with a unit reports a failure, and it is reset afterwards. -/
structure Recovers (r : Registry) (ops : List Operation) : Prop where
  only : ∀ op ∈ ops, (∃ i failure, i < r.size ∧ op = .finish i failure) ∨ ∃ id, op = .reset id
  once : ∀ i < r.size, ops.countP (Operation.reports i) = 1
  unit : ∀ i reason, .finish i (some reason) ∈ ops → r.held i ≠ none
  reset : ∀ before after i reason, ops = before ++ .finish i (some reason) :: after →
    ∃ id, r.index? id = some i ∧ .reset id ∈ after

/-! ## One operation -/

theorem index?_perform (op : Operation) (r : Registry) :
    (op.perform r).after.index? = r.index? := index?_congr (ids_perform op r)

theorem getElem?_perform_finish (r : Registry) (k : Nat) (failure : Option String) (i : Nat) :
    ((Operation.finish k failure).perform r).after.slots[i]? =
      r.slots[i]?.map fun s => if k = i then s.finish failure else s :=
  getElem?_update ..

theorem getElem?_perform_reset (r : Registry) (id i : Nat) :
    ((Operation.reset id).perform r).after.slots[i]? = r.slots[i]?.map fun s =>
      if r.index? id = some i ∧ s.recoverable = true then s.recover else s := by
  simp only [Operation.perform, Reply.map]
  unfold reset
  rcases r.lookup_cases id with ⟨hk, ht⟩ | ⟨k, t, hk, hget, ht⟩
  · simp [hk, ht, refuse, answer]
  · simp only [hk, ht, Option.some.injEq]
    by_cases hfailed : t.recoverable = true
    · simp only [hfailed, if_true, getElem?_update]
      by_cases hki : k = i
      · subst hki
        simp [hget, hfailed]
      · simp [hki]
    · have hsame : ∀ s, r.slots[i]? = some s → ¬(k = i ∧ s.recoverable = true) := by
        rintro s hs ⟨rfl, hrec⟩
        obtain rfl : t = s := Option.some.inj (hget.symm.trans hs)
        exact hfailed hrec
      have hmap : r.slots[i]? =
          r.slots[i]?.map fun s => if k = i ∧ s.recoverable = true then s.recover else s := by
        cases hs : r.slots[i]? with
        | none => rfl
        | some s => simp [hsame s hs]
      rw [if_neg hfailed, ← hmap]
      split <;> rfl

/-! ## What is still to come of a worker -/

/-- The slot of the worker at `i` after a stop and some of the reports and resets, if it was `s`
before the stop, and what the operations that are left owe to this worker. -/
inductive Owes (index : Nat → Option Nat) (s : Slot) (i : Nat) (ops : List Operation) : Slot → Prop
  | report (once : ops.countP (Operation.reports i) = 1)
    (unit : ∀ reason, .finish i (some reason) ∈ ops → s.assignment ≠ none)
    (reset : ∀ before after reason, ops = before ++ .finish i (some reason) :: after →
      ∃ id, index id = some i ∧ .reset id ∈ after) :
    Owes index s i ops { s with state := .stopping, flag := false }
  | reset {reason : String} (reported : ops.countP (Operation.reports i) = 0)
    (reset : ∃ id, index id = some i ∧ .reset id ∈ ops) :
    Owes index s i ops { s with state := .error, flag := false, error := some reason }
  | nothing (reported : ops.countP (Operation.reports i) = 0) :
    Owes index s i ops { s with state := .idle, flag := false }

/-- A report of the worker is the one that is due. -/
theorem Owes.finish {index : Nat → Option Nat} {failure : Option String}
    (h : Owes index s i (.finish i failure :: ops) t) : Owes index s i ops (t.finish failure) := by
  cases h with
  | report once unit reset =>
    have hreported : ops.countP (Operation.reports i) = 0 := by
      simpa [List.countP_cons, Operation.reports] using once
    cases failure with
    | none => exact .nothing hreported
    | some reason =>
      have hunit := unit reason List.mem_cons_self
      have hfinish : ({ s with state := .stopping, flag := false } : Slot).finish (some reason) =
          { s with state := .error, flag := false, error := some reason } := by
        simp [Slot.finish, hunit]
      rw [hfinish]
      exact .reset hreported (reset [] ops reason rfl)
  | reset reported | nothing reported => simp [Operation.reports] at reported

/-- A reset of the worker, once it has failed, is the one that is due. -/
theorem Owes.recover (hs : s.Fit) {index : Nat → Option Nat} (hfailed : t.recoverable = true)
    (h : Owes index s i (.reset id :: ops) t) : Owes index s i ops t.recover := by
  cases h with
  | report | nothing => simp [Slot.recoverable] at hfailed
  | reset reported =>
    have hrecover (reason : String) :
        ({ s with state := .error, flag := false, error := some reason } : Slot).recover =
          { s with state := .idle, flag := false } := by
      simp [Slot.recover, hs.clean]
    rw [hrecover]
    exact .nothing (by simpa [Operation.reports] using reported)

/-- What is due of a worker stays due at an operation that is not about it. -/
theorem Owes.skip (hs : s.Fit) {index : Nat → Option Nat} (hreport : op.reports i = false)
    (hreset : t.recoverable = true → ∀ id, op = .reset id → index id ≠ some i)
    (h : Owes index s i (op :: ops) t) : Owes index s i ops t := by
  have hcount : (op :: ops).countP (Operation.reports i) = ops.countP (Operation.reports i) := by
    simp [hreport]
  cases h with
  | report once unit reset =>
    refine .report (hcount ▸ once) (fun reason hmem => unit reason (List.mem_cons_of_mem _ hmem)) ?_
    intro before after reason hops
    exact reset (op :: before) after reason (congrArg _ hops)
  | reset reported reset =>
    obtain ⟨id, hid, hmem⟩ := reset
    refine .reset (hcount ▸ reported) ⟨id, hid, (List.mem_cons.1 hmem).resolve_left fun heq => ?_⟩
    exact hreset (by simp [Slot.recoverable, hs.present]) id heq.symm hid
  | nothing reported => exact .nothing (hcount ▸ reported)

/-- Every report and every reset pays what is due of a worker, or leaves the worker alone. -/
theorem Owes.step (hs : s.Fit) (hop : (∃ k failure, op = .finish k failure) ∨ ∃ id, op = .reset id)
    (ht : r.slots[i]? = some t) (h : Owes r.index? s i (op :: ops) t) :
    ∃ t', (op.perform r).after.slots[i]? = some t' ∧
      Owes (op.perform r).after.index? s i ops t' := by
  rw [index?_perform]
  rcases hop with ⟨k, failure, rfl⟩ | ⟨id, rfl⟩
  · rw [getElem?_perform_finish, ht, Option.map_some]
    by_cases hki : k = i
    · subst hki
      exact ⟨_, rfl, by simpa using h.finish⟩
    · have hother : (Operation.finish k failure).reports i = false := by
        simp [Operation.reports, hki]
      exact ⟨t, by simp [hki], h.skip hs hother fun _ _ heq => nomatch heq⟩
  · rw [getElem?_perform_reset, ht, Option.map_some]
    by_cases hdue : r.index? id = some i ∧ t.recoverable = true
    · exact ⟨_, by rw [if_pos hdue], h.recover hs hdue.2⟩
    · refine ⟨t, by rw [if_neg hdue], h.skip hs rfl fun hfailed id' heq hid => hdue ⟨?_, hfailed⟩⟩
      rw [Operation.reset.inj heq]
      exact hid

/-- When all is paid the worker is idle, and is otherwise what it was. The induction is on the
operations that are left. -/
theorem Owes.performAll (hs : s.Fit)
    (hops : ∀ op ∈ ops, (∃ k failure, op = .finish k failure) ∨ ∃ id, op = .reset id)
    (ht : r.slots[i]? = some t) (h : Owes r.index? s i ops t) :
    (performAll ops r).slots[i]? = some { s with state := .idle, flag := false } := by
  induction ops generalizing r t with
  | nil =>
    cases h with
    | report once => cases once
    | reset _ reset =>
      obtain ⟨id, -, hmem⟩ := reset
      cases hmem
    | nothing => exact ht
  | cons op ops ih =>
    obtain ⟨t', ht', h'⟩ := h.step hs (hops op List.mem_cons_self) ht
    exact ih (fun o ho => hops o (List.mem_cons_of_mem op ho)) ht' h'

/-! ## The whole fleet -/

/-- What every operation keeps, all of them keep. -/
theorem performAll_induction {P : Registry → Prop} (hr : P r)
    (hstep : ∀ op ∈ ops, ∀ q, P q → P (op.perform q).after) : P (performAll ops r) := by
  induction ops generalizing r with
  | nil => exact hr
  | cons op ops ih =>
    exact ih (hstep op List.mem_cons_self r hr) fun o ho => hstep o (List.mem_cons_of_mem _ ho)

theorem Recovers.finish_or_reset (h : r.Recovers ops) (hop : op ∈ ops) :
    (∃ k failure, op = .finish k failure) ∨ ∃ id, op = .reset id :=
  (h.only op hop).imp_left fun ⟨k, failure, _, heq⟩ => ⟨k, failure, heq⟩

/-- Workers that come back are neither more nor less, and nobody shuts the registry down. -/
theorem Recovers.frame (h : r.Recovers ops) :
    (performAll ops r.stop.after).slots.length = r.slots.length ∧
      (performAll ops r.stop.after).down = r.down := by
  refine performAll_induction (P := fun q => q.slots.length = r.slots.length ∧ q.down = r.down)
    ⟨length_perform .stop r, rfl⟩ fun op hop q hq => ?_
  refine ⟨(length_perform op q).trans hq.1, ?_⟩
  rw [down_perform, hq.2]
  rcases h.finish_or_reset hop with ⟨k, failure, rfl⟩ | ⟨id, rfl⟩ <;> simp

/-- Right after a stop every worker owes its report. -/
theorem Recovers.owes (h : r.Recovers ops) (hs : s.Fit) (hi : r.slots[i]? = some s) :
    r.stop.after.slots[i]? = some { s with state := .stopping, flag := false } ∧
      Owes r.stop.after.index? s i ops { s with state := .stopping, flag := false } := by
  have hindex : r.stop.after.index? = r.index? := index?_perform .stop r
  refine ⟨?_, ?_⟩
  · rw [getElem?_stop, hi, Option.map_some, stopSlot, if_pos hs.running]
    rfl
  · rw [hindex]
    refine .report (h.once i (List.getElem?_eq_some_iff.1 hi).1) (fun reason hmem => ?_) ?_
    · exact held_eq hi ▸ h.unit i reason hmem
    · exact fun before after reason => h.reset before after i reason

/-- When the workers have come back, each of them is idle with its flag down, and is otherwise what
it was before the stop. -/
theorem Recovers.getElem?_performAll (h : r.Recovers ops) (hfit : ∀ s ∈ r.slots, s.Fit) (i : Nat) :
    (performAll ops r.stop.after).slots[i]? =
      r.slots[i]?.map fun s : Slot => { s with state := .idle, flag := false } := by
  cases hi : r.slots[i]? with
  | none =>
    have hlength := List.getElem?_eq_none_iff.1 hi
    exact List.getElem?_eq_none_iff.2 (h.frame.1 ▸ hlength)
  | some s =>
    have hs := hfit s (List.mem_of_getElem? hi)
    obtain ⟨ht, howes⟩ := h.owes hs hi
    exact howes.performAll hs (fun op => h.finish_or_reset) ht

/-- A fleet all of whose workers run without a failure is stopped. When every worker has reported
the end of its run loop, some of those with a unit with a failure, and those that failed have been
reset afterwards, in any order, then the fleet can be started, and the registry is again what it was
before the stop : the workers with their assignments, their flags, and no failures. -/
theorem restart_restores (hfit : ∀ s ∈ r.slots, s.Fit) (h : r.Recovers ops) :
    (performAll ops r.stop.after).start.answer = .ok () ∧
      (performAll ops r.stop.after).start.after = r := by
  have hback := h.getElem?_performAll hfit
  generalize hq : performAll ops r.stop.after = q at hback
  have hidle : ∀ t ∈ q.slots, t.state = .idle := by
    intro t ht
    obtain ⟨i, hi⟩ := List.mem_iff_getElem?.1 ht
    rw [hback i] at hi
    obtain ⟨s, -, rfl⟩ := Option.map_eq_some_iff.1 hi
    rfl
  refine ⟨start_answer_eq_ok_iff.2 hidle, ?_⟩
  have hslots : q.start.after.slots = r.slots := by
    refine List.ext_getElem? fun i => ?_
    rw [getElem?_start hidle, hback i, Option.map_map]
    cases hi : r.slots[i]? with
    | none => rfl
    | some s =>
      obtain ⟨hrun, hflag, -, -⟩ := hfit s (List.mem_of_getElem? hi)
      simp [Slot.launch, ← hrun, ← hflag]
  have hdown : q.start.after.down = r.down := by
    rw [← h.frame.2, hq]
    exact (down_perform .start q).trans (by simp)
  calc q.start.after = ⟨q.start.after.slots, q.start.after.down⟩ := rfl
    _ = r := by rw [hslots, hdown]

/-- A worker with a pipeline, one with a block and one with nothing, all running. -/
def threeRunning : Registry :=
  performAll [.assignPipeline 1 ⟨7, "rx"⟩ 0, .assignBlock 2 ⟨8, "tx"⟩, .start]
    (ofLcores [.worker 1, .worker 2, .worker 3])

/-- The three workers are stopped and come back in the order three, two, one. The two with a unit
fail, and are reset in the other order, the second one before the first one has reported. -/
theorem restart_restores_threeRunning :
    let ops : List Operation := [.finish 2 none, .finish 1 (some "ring full"), .reset 2,
      .finish 0 (some "panicked"), .reset 3, .reset 1]
    (∀ s ∈ threeRunning.slots, s.Fit) ∧ threeRunning.Recovers ops ∧
    (performAll ops threeRunning.stop.after).start.answer = .ok () ∧
    (performAll ops threeRunning.stop.after).start.after = threeRunning := by
  intro ops
  have hfit : ∀ s ∈ threeRunning.slots, s.Fit := by
    intro s hs
    have hall : ∀ s ∈ threeRunning.slots, s.state = .running ∧ s.flag = true ∧ s.error = none ∧
      s.retired = false := by decide
    obtain ⟨hrun, hflag, hclean, hpresent⟩ := hall s hs
    exact ⟨hrun, hflag, hclean, hpresent⟩
  have hrecovers : threeRunning.Recovers ops := by
    have hsize : threeRunning.size = 3 := by decide
    refine ⟨?_, ?_, ?_, ?_⟩
    · simp [ops, hsize]
    · decide
    · intro i reason hmem
      have hi : i = 0 ∨ i = 1 := by grind
      rcases hi with rfl | rfl <;> decide
    · intro before after i reason hsplit
      have hcases : i = 1 ∧ .reset 2 ∈ after ∨ i = 0 ∧ .reset 1 ∈ after := by
        rcases before with _ | ⟨_, _ | ⟨_, _ | ⟨_, _ | ⟨_, _ | ⟨_, _ | ⟨_, _⟩⟩⟩⟩⟩⟩ <;>
          simp [ops] at hsplit <;> grind
      rcases hcases with ⟨rfl, hreset⟩ | ⟨rfl, hreset⟩
      · exact ⟨2, by decide, hreset⟩
      · exact ⟨1, by decide, hreset⟩
  exact ⟨hfit, hrecovers, restart_restores hfit hrecovers⟩

end Registry

end CoreFleet
