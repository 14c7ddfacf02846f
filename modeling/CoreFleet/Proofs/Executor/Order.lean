import CoreFleet.Proofs.Executor.Service
import Mathlib.Data.List.Basic
import Mathlib.Order.Monotone.Basic

/-!
# The order of the jobs

Each submission has a ticket of its own, and tickets grow. At any time the jobs that were
accepted are those that were begun and those in the queue, in this order (`accepted_eq`).
Hence a job that is begun was accepted, no job is begun twice (`Begins.unique`), and jobs
are begun in the order in which they were accepted (`Begins.exists_begins`).

What the executor's thread has begun it carries out before it begins anything else
(`Begins.runs_or_executes`, `Begins.executes_of_lt`), and every reply that a job ends in
belongs to a job that was carried out (`exists_executes`).
-/

namespace CoreFleet

namespace Service

variable {V Q A R : Type} {σ : Service V Q A R} {n m m' b b' e ticket ticket' : Nat}
  {job job' : Job V Q A R} {r r' : Except Error R}

/-! ## Tickets -/

theorem issued_mono (σ : Service V Q A R) : Monotone fun n => (σ.executor n).issued := by
  refine monotone_nat_of_le_succ fun n => ?_
  rw [executor, Executor.issued_react]
  split <;> omega

theorem Submits.issued_eq (h : σ.Submits m ticket job) : (σ.executor m).issued = ticket := by
  rw [← h.2, Executor.fst_submit]

theorem Submits.lt_issued (h : σ.Submits m ticket job) (hmn : m < n) :
    ticket < (σ.executor n).issued := by
  have hsucc : (σ.executor (m + 1)).issued = ticket + 1 := by
    rw [executor, h.1, Executor.issued_react, h.issued_eq]
  have hle : (σ.executor (m + 1)).issued ≤ (σ.executor n).issued := σ.issued_mono hmn
  omega

theorem Submits.lt (h : σ.Submits m ticket job) (h' : σ.Submits m' ticket' job') (hlt : m < m') :
    ticket < ticket' := by
  have := h.lt_issued hlt
  rwa [h'.issued_eq] at this

/-- No two submissions have one ticket. -/
theorem Submits.unique (h : σ.Submits m ticket job) (h' : σ.Submits m' ticket job') :
    m = m' ∧ job = job' := by
  rcases Nat.lt_trichotomy m m' with hlt | rfl | hlt
  · exact absurd (h.lt h' hlt) (Nat.lt_irrefl ticket)
  · exact ⟨rfl, Executor.Event.submit.inj (h.1.symm.trans h'.1)⟩
  · exact absurd (h'.lt h hlt) (Nat.lt_irrefl ticket)

/-- Jobs are accepted until the sender of the queue is taken away. -/
theorem accepting_iff (σ : Service V Q A R) : ∀ n,
    (σ.executor n).accepting = true ↔ ∀ k < n, ¬σ.HangsUp k
  | 0 => by simp [executor]
  | n + 1 => by
    rw [executor, Executor.accepting_react, Bool.and_eq_true, Bool.not_eq_true',
      σ.accepting_iff n, Nat.forall_lt_succ_right, HangsUp, Bool.not_eq_true]

/-! ## The queue -/

/-- The jobs that were accepted at the first `n` events. -/
def accepted (σ : Service V Q A R) (n : Nat) : List (Nat × Job V Q A R) :=
  (List.range n).filterMap fun m => (σ.executor m).accepts? (σ.schedule m)

/-- The jobs that were begun at the first `n` events. -/
def begun (σ : Service V Q A R) (n : Nat) : List (Nat × Job V Q A R) :=
  (List.range n).filterMap fun b => (σ.executor b).begins? (σ.schedule b)

theorem accepts_iff : (σ.executor m).accepts? (σ.schedule m) = some (ticket, job) ↔
    σ.Accepts m ticket job := by
  rw [Accepts, ← accepting_iff, Submits]
  constructor
  · intro h
    cases hev : σ.schedule m <;> simp_all [Executor.accepts?, Executor.fst_submit]
  · rintro ⟨⟨hev, rfl⟩, hacc⟩
    simp [hev, Executor.accepts?, hacc, Executor.fst_submit]

theorem begins_iff : (σ.executor b).begins? (σ.schedule b) = some (ticket, job) ↔
    σ.Begins b ticket job := by
  constructor
  · intro h
    have hnone : (σ.executor b).current = none := by
      cases hcurrent : (σ.executor b).current with
      | none => rfl
      | some c => simp [Executor.begins?_of_some hcurrent] at h
    exact ⟨hnone, by rw [executor, Executor.current_react_of_none hnone, h]⟩
  · rintro ⟨hnone, hsome⟩
    rwa [executor, Executor.current_react_of_none hnone] at hsome

theorem mem_accepted {c : Nat × Job V Q A R} :
    c ∈ σ.accepted n ↔ ∃ m < n, σ.Accepts m c.1 c.2 := by
  simp only [accepted, List.mem_filterMap, List.mem_range, ← accepts_iff]

theorem mem_begun {c : Nat × Job V Q A R} :
    c ∈ σ.begun n ↔ ∃ b < n, σ.Begins b c.1 c.2 := by
  simp only [begun, List.mem_filterMap, List.mem_range, ← begins_iff]

/-- What the events bring about is added to event by event. -/
theorem filterMap_range_succ {α : Type} (f : Nat → Option α) (n : Nat) :
    (List.range (n + 1)).filterMap f = (List.range n).filterMap f ++ (f n).toList := by
  cases h : f n <;> simp [List.range_succ, List.filterMap_append, h]

theorem filterMap_range_prefix {α : Type} (f : Nat → Option α) (h : n ≤ m) :
    (List.range n).filterMap f <+: (List.range m).filterMap f := by
  refine List.IsPrefix.filterMap _ ?_
  rw [← Nat.min_eq_left h, ← List.take_range]
  exact List.take_prefix n _

theorem accepted_succ (σ : Service V Q A R) (n : Nat) : σ.accepted (n + 1) =
    σ.accepted n ++ ((σ.executor n).accepts? (σ.schedule n)).toList :=
  filterMap_range_succ _ n

theorem begun_succ (σ : Service V Q A R) (n : Nat) : σ.begun (n + 1) =
    σ.begun n ++ ((σ.executor n).begins? (σ.schedule n)).toList :=
  filterMap_range_succ _ n

theorem accepted_prefix (σ : Service V Q A R) (h : n ≤ m) : σ.accepted n <+: σ.accepted m :=
  filterMap_range_prefix _ h

theorem begun_prefix (σ : Service V Q A R) (h : n ≤ m) : σ.begun n <+: σ.begun m :=
  filterMap_range_prefix _ h

/-- The accepted jobs are those that were begun and those in the queue, in this order. -/
theorem accepted_eq (σ : Service V Q A R) : ∀ n,
    σ.accepted n = σ.begun n ++ (σ.executor n).queue
  | 0 => rfl
  | n + 1 => by
    rw [accepted_succ, begun_succ, σ.accepted_eq n, executor, List.append_assoc,
      Executor.queue_react, List.append_assoc]

/-- The accepted jobs stand in the order of their tickets. -/
theorem pairwise_accepted (σ : Service V Q A R) (n : Nat) :
    (σ.accepted n).Pairwise fun c c' => c.1 < c'.1 := by
  rw [accepted, List.pairwise_filterMap]
  refine List.pairwise_lt_range.imp fun hlt c hc c' hc' => ?_
  exact (accepts_iff.1 hc).1.lt (accepts_iff.1 hc').1 hlt

/-- A job that is begun was accepted. -/
theorem Begins.exists_accepts (h : σ.Begins b ticket job) :
    ∃ m < b, σ.Accepts m ticket job := by
  have hbegun : (ticket, job) ∈ σ.begun (b + 1) := mem_begun.2 ⟨b, Nat.lt_succ_self b, h⟩
  have haccepted : (ticket, job) ∈ σ.accepted (b + 1) := by
    rw [accepted_eq]
    exact List.mem_append_left _ hbegun
  obtain ⟨m, hm, hacc⟩ := mem_accepted.1 haccepted
  refine ⟨m, Nat.lt_of_le_of_ne (Nat.le_of_lt_succ hm) ?_, hacc⟩
  rintro rfl
  have hbegins := begins_iff.2 h
  rw [hacc.1.1] at hbegins
  cases hbegins

/-- The accepted jobs when one of them is begun. -/
theorem Begins.accepted_eq (h : σ.Begins b ticket job) : σ.accepted (b + 1) =
    σ.begun b ++ (ticket, job) :: (σ.executor (b + 1)).queue := by
  rw [σ.accepted_eq, begun_succ, begins_iff.2 h]
  simp

/-- A job that was accepted before one that is begun was begun before it. -/
theorem Begins.exists_begins (h : σ.Begins b' ticket' job') (hacc : σ.Accepts m ticket job)
    (hlt : ticket < ticket') : ∃ b < b', σ.Begins b ticket job := by
  obtain ⟨m', hm', hacc'⟩ := h.exists_accepts
  have hmb : m < b' + 1 := by
    by_contra hge
    exact absurd (hacc'.1.lt hacc.1 (by omega)) (by omega)
  have hmem : (ticket, job) ∈ σ.accepted (b' + 1) := mem_accepted.2 ⟨m, hmb, hacc⟩
  have hsorted := σ.pairwise_accepted (b' + 1)
  rw [h.accepted_eq] at hmem hsorted
  have hlater := (List.pairwise_cons.1 (List.pairwise_append.1 hsorted).2.1).1
  rcases List.mem_append.1 hmem with hbegun | htail
  · exact mem_begun.1 hbegun
  · rcases List.mem_cons.1 htail with heq | hqueue
    · simp only [Prod.mk.injEq] at heq
      omega
    · have : ticket' < ticket := hlater _ hqueue
      omega

/-- No job is begun twice. -/
theorem Begins.unique (h : σ.Begins b ticket job) (h' : σ.Begins b' ticket job') :
    b = b' ∧ job = job' := by
  have hnot {b b' : Nat} {job job' : Job V Q A R} (h : σ.Begins b ticket job)
      (h' : σ.Begins b' ticket job') : ¬b < b' := by
    intro hlt
    have hsorted := σ.pairwise_accepted (b' + 1)
    rw [h'.accepted_eq] at hsorted
    have hmem : (ticket, job) ∈ σ.begun b' := mem_begun.2 ⟨b, hlt, h⟩
    have := (List.pairwise_append.1 hsorted).2.2 _ hmem _ List.mem_cons_self
    exact Nat.lt_irrefl ticket this
  obtain ⟨m, -, hacc⟩ := h.exists_accepts
  obtain ⟨m', -, hacc'⟩ := h'.exists_accepts
  exact ⟨Nat.le_antisymm (Nat.le_of_not_lt (hnot h' h)) (Nat.le_of_not_lt (hnot h h')),
    (hacc.1.unique hacc'.1).2⟩

/-! ## One job at a time -/

theorem remainder_succ {b n : Nat} (h : b < n) : σ.remainder b job (n + 1) =
    (σ.remainder b job n).after (σ.executor n).value (σ.schedule n) := by
  rw [remainder, if_neg (Nat.not_le.2 h)]

theorem remainder_begin (b : Nat) : σ.remainder b job (b + 1) = job := by
  rw [remainder, if_pos (Nat.le_refl b)]

/-- The executor's thread has run the job that it began at event `b`, and no other. -/
def Runs (σ : Service V Q A R) (b ticket : Nat) (job : Job V Q A R) (n : Nat) : Prop :=
  ∀ k, b < k → k ≤ n → (σ.executor k).current = some (ticket, σ.remainder b job k)

/-- The running job ends when its thread makes a step and it has come to its reply. -/
theorem ends?_eq_some (hcurrent : (σ.executor n).current = some (ticket, job)) {c} :
    (σ.executor n).ends? (σ.schedule n) = some c ↔
      σ.schedule n = .step ∧ ∃ r, job.reply? = some r ∧ c = (ticket, r) := by
  cases hev : σ.schedule n <;> cases hreply : job.reply? <;>
    simp [Executor.ends?, hcurrent, hreply, eq_comm]

theorem current_succ (h : (σ.executor n).current = some (ticket, job)) :
    (σ.executor (n + 1)).current =
      if ((σ.executor n).ends? (σ.schedule n)).isSome then none
      else some (ticket, job.after (σ.executor n).value (σ.schedule n)) :=
  Executor.current_react_of_some h

/-- A job that was begun runs, or has been carried out. -/
theorem Begins.runs_or_executes (h : σ.Begins b ticket job) (hbn : b < n) :
    σ.Runs b ticket job n ∨ ∃ e r, e < n ∧ σ.Executes b e ticket job r := by
  induction n, hbn using Nat.le_induction with
  | base =>
    refine Or.inl fun k hbk hkb => ?_
    obtain rfl : k = b + 1 := by omega
    rw [h.2, remainder_begin]
  | succ n hbn ih =>
    rcases ih with hruns | ⟨e, r, hen, hexec⟩
    · have hcurrent := hruns n hbn (Nat.le_refl n)
      cases hends : (σ.executor n).ends? (σ.schedule n) with
      | some c =>
        obtain ⟨hstep, r, hr, rfl⟩ := (ends?_eq_some hcurrent).1 hends
        exact Or.inr ⟨n, r, Nat.lt_succ_self n, h, hruns, hbn, hstep, hr⟩
      | none =>
        refine Or.inl fun k hbk hkn => ?_
        rcases Nat.le_succ_iff.1 hkn with hle | rfl
        · exact hruns k hbk hle
        · rw [current_succ hcurrent, hends, remainder_succ hbn]
          rfl
    · exact Or.inr ⟨e, r, Nat.lt_succ_of_lt hen, hexec⟩

/-- After the end of a job none runs, until the next one is begun. -/
theorem Executes.current_succ (h : σ.Executes b e ticket job r) :
    (σ.executor (e + 1)).current = none := by
  have hcurrent := h.runs e h.lt (Nat.le_refl e)
  have hends : (σ.executor e).ends? (σ.schedule e) = some (ticket, r) :=
    (ends?_eq_some hcurrent).2 ⟨h.ends.1, r, h.ends.2, rfl⟩
  rw [Service.current_succ hcurrent, hends]
  rfl

/-- A job is carried out before the next one is begun. -/
theorem Begins.executes_of_lt (h : σ.Begins b ticket job) (h' : σ.Begins b' ticket' job')
    (hlt : b < b') : ∃ e r, e < b' ∧ σ.Executes b e ticket job r := by
  refine (h.runs_or_executes hlt).resolve_left fun hruns => ?_
  have hcurrent := hruns b' hlt (Nat.le_refl b')
  simp [h'.1] at hcurrent

/-- A job that runs was begun. -/
theorem exists_begins_of_current : ∀ {n : Nat} {ticket : Nat} {job : Job V Q A R},
    (σ.executor n).current = some (ticket, job) →
    ∃ b j, b < n ∧ σ.Begins b ticket j ∧ σ.Runs b ticket j n
  | 0, _, _, h => nomatch h
  | n + 1, ticket, job, h => by
    cases hprev : (σ.executor n).current with
    | none =>
      refine ⟨n, job, Nat.lt_succ_self n, ⟨hprev, h⟩, fun k hnk hkn => ?_⟩
      obtain rfl : k = n + 1 := by omega
      rw [h, remainder_begin]
    | some c =>
      obtain ⟨ticket', job'⟩ := c
      obtain ⟨b, j, hbn, hbegins, hruns⟩ := exists_begins_of_current hprev
      rcases hbegins.runs_or_executes (Nat.lt_succ_of_lt hbn) with hruns' | ⟨e, r, hen, hexec⟩
      · have hcurrent := hruns' (n + 1) (by omega) (Nat.le_refl _)
        obtain rfl : ticket = ticket' := by simp_all
        exact ⟨b, j, Nat.lt_succ_of_lt hbn, hbegins, hruns'⟩
      · have hnone := hexec.current_succ
        rcases Nat.lt_succ_iff_lt_or_eq.1 hen with hlt | rfl
        · simp [hruns (e + 1) (by have := hexec.lt; omega) hlt] at hnone
        · simp [hnone] at h

/-- What ends a job is that it was carried out. -/
theorem exists_executes (h : (σ.executor e).ends? (σ.schedule e) = some (ticket, r)) :
    ∃ b j, σ.Executes b e ticket j r := by
  cases hcurrent : (σ.executor e).current with
  | none => simp [Executor.ends?_of_none hcurrent] at h
  | some c =>
    obtain ⟨t, job⟩ := c
    obtain ⟨hstep, r', hr, heq⟩ := (ends?_eq_some hcurrent).1 h
    obtain ⟨rfl, rfl⟩ := Prod.mk.inj heq
    obtain ⟨b, j, hbe, hbegins, hruns⟩ := exists_begins_of_current hcurrent
    refine ⟨b, j, hbegins, hruns, hbe, hstep, ?_⟩
    have hlast := hruns e hbe (Nat.le_refl e)
    rw [hcurrent] at hlast
    obtain rfl : job = σ.remainder b j e := by simpa using hlast
    exact hr

/-- A job is carried out once. -/
theorem Executes.unique {e' : Nat} (h : σ.Executes b e ticket job r)
    (h' : σ.Executes b' e' ticket job' r') : e = e' := by
  obtain ⟨rfl, rfl⟩ := h.begins.unique h'.begins
  have hnot {e e' : Nat} {r r' : Except Error R} (h : σ.Executes b e ticket job r)
      (h' : σ.Executes b e' ticket job r') : ¬e < e' := by
    intro hlt
    have hcurrent := h'.runs (e + 1) (Nat.lt_succ_of_lt h.lt) hlt
    simp [h.current_succ] at hcurrent
  exact Nat.le_antisymm (Nat.le_of_not_lt (hnot h' h)) (Nat.le_of_not_lt (hnot h h'))

end Service

end CoreFleet
