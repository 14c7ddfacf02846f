import CoreFleet.Proofs.Executor.Order
import Mathlib.Tactic.IntervalCases

/-!
# Every job is delivered once

`delivers_exactly_once` says what whoever submits a job may rely on. A job that was
accepted is carried out once, after those that were accepted before it ; it is carried out
for sure if the executor's thread goes on and requests are replied to (`Fair`), and it has
been when that thread has ended. Its receiver gets one message, the reply that the job comes
to. A job that was submitted when the executor was stopped is never begun, and its receiver
gets the refusal.

That a job comes to its end is an induction on what is left of it (`Fair.exists_ends`), and
that it is begun one on the number of jobs before it (`Fair.exists_length_begun`). A reply
is sent to a ticket by one event alone, the end of its job or its refusal, from which its
messages follow (`messages_of_sends`).

Receivers that are dropped matter to nobody else : the executor goes through the same states
as that of the `attentive` service, but for the replies (`forget_executor`).
-/

namespace CoreFleet

namespace Service

variable {V Q A R : Type} {σ : Service V Q A R} {n m m' b b' e ticket : Nat}
  {job job' : Job V Q A R} {r r' : Except Error R}

/-! ## Every accepted job is carried out -/

/-- A job that has not come to its reply goes on. -/
theorem current_succ_of_reply?_eq_none {ev : Executor.Event V Q A R}
    (h : (σ.executor n).current = some (ticket, job)) (hreply : job.reply? = none)
    (hev : σ.schedule n = ev) :
    (σ.executor (n + 1)).current = some (ticket, job.after (σ.executor n).value ev) := by
  have hends : (σ.executor n).ends? (σ.schedule n) = none := by
    refine Option.eq_none_iff_forall_ne_some.2 fun c hc => ?_
    obtain ⟨-, r, hr, -⟩ := (ends?_eq_some h).1 hc
    simp [hr] at hreply
  rw [current_succ h, hends, hev]
  rfl

/-- A job waits for the event that brings it forward. -/
theorem current_succ_of_not_moves (h : (σ.executor n).current = some (ticket, job))
    (hmoves : ¬job.Moves (σ.schedule n)) : (σ.executor (n + 1)).current = some (ticket, job) := by
  have hends : (σ.executor n).ends? (σ.schedule n) = none := by
    refine Option.eq_none_iff_forall_ne_some.2 fun c hc => hmoves ?_
    obtain ⟨hstep, r, hr, -⟩ := (ends?_eq_some h).1 hc
    rw [hstep]
    exact Job.moves_of_reply? hr
  rw [current_succ h, hends, Job.after_of_not_moves hmoves]
  rfl

theorem exists_first_move : ∀ (d : Nat) {n : Nat}, (σ.executor n).current = some (ticket, job) →
    job.Moves (σ.schedule (n + d)) →
    ∃ m ≥ n, (σ.executor m).current = some (ticket, job) ∧ job.Moves (σ.schedule m)
  | 0, n, h, hmoves => ⟨n, Nat.le_refl n, h, hmoves⟩
  | d + 1, n, h, hmoves => by
    by_cases hnow : job.Moves (σ.schedule n)
    · exact ⟨n, Nat.le_refl n, h, hnow⟩
    · rw [Nat.add_comm d, ← Nat.add_assoc] at hmoves
      obtain ⟨m, hm, hrest⟩ := exists_first_move d (current_succ_of_not_moves h hnow) hmoves
      exact ⟨m, by omega, hrest⟩

/-- The event that brings a running job forward comes. -/
theorem Fair.exists_moves (hfair : σ.Fair) (h : (σ.executor n).current = some (ticket, job)) :
    ∃ m ≥ n, (σ.executor m).current = some (ticket, job) ∧ job.Moves (σ.schedule m) := by
  obtain ⟨m, hm, hmoves⟩ : ∃ m ≥ n, job.Moves (σ.schedule m) := by
    cases job with
    | ask q next => exact hfair.replies n ticket q next h
    | _ => exact hfair.steps n
  obtain ⟨d, rfl⟩ := Nat.exists_eq_add_of_le hm
  exact exists_first_move d h hmoves

/-- A job that runs comes to its end. The induction is on what is left of it. -/
theorem Fair.exists_ends (hfair : σ.Fair) (h : (σ.executor n).current = some (ticket, job)) :
    ∃ e ≥ n, ∃ r, (σ.executor e).ends? (σ.schedule e) = some (ticket, r) := by
  induction job generalizing n with
  | answer | crash =>
    obtain ⟨m, hm, hcurrent, hmoves⟩ := hfair.exists_moves h
    exact ⟨m, hm, _, (ends?_eq_some hcurrent).2 ⟨hmoves, _, rfl, rfl⟩⟩
  | look next ih =>
    obtain ⟨m, hm, hcurrent, hstep⟩ := hfair.exists_moves h
    obtain ⟨e, he, hends⟩ := ih _ (current_succ_of_reply?_eq_none hcurrent rfl hstep)
    exact ⟨e, by omega, hends⟩
  | put value next ih =>
    obtain ⟨m, hm, hcurrent, hstep⟩ := hfair.exists_moves h
    obtain ⟨e, he, hends⟩ := ih (current_succ_of_reply?_eq_none hcurrent rfl hstep)
    exact ⟨e, by omega, hends⟩
  | stop next ih =>
    obtain ⟨m, hm, hcurrent, hstep⟩ := hfair.exists_moves h
    obtain ⟨e, he, hends⟩ := ih (current_succ_of_reply?_eq_none hcurrent rfl hstep)
    exact ⟨e, by omega, hends⟩
  | ask q next ih =>
    obtain ⟨m, hm, hcurrent, a, hresume⟩ := hfair.exists_moves h
    obtain ⟨e, he, hends⟩ := ih a (current_succ_of_reply?_eq_none hcurrent rfl hresume)
    exact ⟨e, by omega, hends⟩

/-- A job that is begun is carried out. -/
theorem Fair.exists_executes (hfair : σ.Fair) (h : σ.Begins b ticket job) :
    ∃ e r, σ.Executes b e ticket job r := by
  obtain ⟨e, hbe, r, hends⟩ := hfair.exists_ends h.2
  rcases h.runs_or_executes hbe with hruns | ⟨e', r', -, hexec⟩
  · obtain ⟨hstep, r', hr, -⟩ := (ends?_eq_some (hruns e hbe (Nat.le_refl e))).1 hends
    exact ⟨e, r', h, hruns, hbe, hstep, hr⟩
  · exact ⟨e', r', hexec⟩

/-- At some time no job runs. -/
theorem Fair.exists_idle (hfair : σ.Fair) (n : Nat) : ∃ m ≥ n, (σ.executor m).current = none := by
  cases hcurrent : (σ.executor n).current with
  | none => exact ⟨n, Nat.le_refl n, hcurrent⟩
  | some c =>
    obtain ⟨e, he, r, hends⟩ := hfair.exists_ends hcurrent
    obtain ⟨b, j, hexec⟩ := Service.exists_executes hends
    exact ⟨e + 1, by omega, hexec.current_succ⟩

/-- As long as there is a job in the queue, one is begun. -/
theorem Fair.exists_begins (hfair : σ.Fair) (h : (σ.executor n).queue ≠ []) :
    ∃ b ≥ n, ∃ ticket job, σ.Begins b ticket job := by
  by_contra hnever
  have hnone : ∀ m ≥ n, (σ.executor m).begins? (σ.schedule m) = none := by
    intro m hm
    refine Option.eq_none_iff_forall_ne_some.2 fun c hc => hnever ?_
    exact ⟨m, hm, c.1, c.2, begins_iff.1 hc⟩
  have hqueue : ∀ m ≥ n, (σ.executor m).queue ≠ [] := by
    intro m hm
    induction m, hm using Nat.le_induction with
    | base => exact h
    | succ m hm ih =>
      have hreact := (σ.executor m).queue_react (σ.schedule m)
      rw [hnone m hm] at hreact
      intro hempty
      rw [executor] at hempty
      simp [hempty, ih] at hreact
  obtain ⟨n', hn', hidle⟩ := hfair.exists_idle n
  have hidle' : ∀ m ≥ n', (σ.executor m).current = none := by
    intro m hm
    induction m, hm using Nat.le_induction with
    | base => exact hidle
    | succ m hm ih => rw [executor, Executor.current_react_of_none ih, hnone m (by omega)]
  obtain ⟨m, hm, hstep⟩ := hfair.steps n'
  have hhead := hnone m (by omega)
  rw [hstep, Executor.begins?, hidle' m hm] at hhead
  exact hqueue m (by omega) (by simpa using hhead)

/-- As many jobs are begun as were accepted. -/
theorem Fair.exists_length_begun (hfair : σ.Fair) (n : Nat) : ∀ k ≤ (σ.accepted n).length,
    ∃ m ≥ n, k ≤ (σ.begun m).length
  | 0, _ => ⟨n, Nat.le_refl n, Nat.zero_le _⟩
  | k + 1, hk => by
    obtain ⟨m, hm, hle⟩ := hfair.exists_length_begun n k (Nat.le_of_succ_le hk)
    rcases Nat.eq_or_lt_of_le hle with heq | hlt
    · have hmono := (σ.accepted_prefix hm).length_le
      have hqueue : (σ.executor m).queue ≠ [] := by
        intro hempty
        rw [σ.accepted_eq m, hempty, List.append_nil] at hmono
        omega
      obtain ⟨b, hb, ticket, job, hbegins⟩ := hfair.exists_begins hqueue
      have hmono' := (σ.begun_prefix hb).length_le
      refine ⟨b + 1, by omega, ?_⟩
      rw [begun_succ, begins_iff.2 hbegins, List.length_append, Option.toList_some,
        List.length_singleton]
      omega
    · exact ⟨m, hm, hlt⟩

/-- An accepted job is begun. -/
theorem Fair.begins_of_accepts (hfair : σ.Fair) (h : σ.Accepts m ticket job) :
    ∃ b, σ.Begins b ticket job := by
  obtain ⟨n, hn, hle⟩ := hfair.exists_length_begun (m + 1) _ (Nat.le_refl _)
  have hmem : (ticket, job) ∈ σ.accepted (m + 1) := mem_accepted.2 ⟨m, Nat.lt_succ_self m, h⟩
  have hbegun : σ.accepted (m + 1) <+: σ.begun n := by
    refine List.prefix_of_prefix_length_le (σ.accepted_prefix hn) ?_ hle
    rw [accepted_eq]
    exact List.prefix_append _ _
  obtain ⟨b, -, hbegins⟩ := mem_begun.1 (hbegun.subset hmem)
  exact ⟨b, hbegins⟩

/-- The executor has nothing left to do, and will not be given anything. -/
structure Drained (e : Executor V Q A R) : Prop where
  idle : e.current = none
  empty : e.queue = []
  closed : e.accepting = false

theorem drained_of_ended : ∀ {n : Nat}, (σ.executor n).ended = true → Drained (σ.executor n)
  | 0, h => nomatch h
  | n + 1, h => by
    have hprev : Drained (σ.executor n) := by
      rcases Executor.ended_react h with hended | ⟨hidle, hempty, hclosed⟩
      · exact drained_of_ended hended
      · exact ⟨hidle, hempty, hclosed⟩
    have hnone : (σ.executor n).begins? (σ.schedule n) = none := by
      cases hev : σ.schedule n <;> simp [Executor.begins?, hprev.empty]
    have haccepts : (σ.executor n).accepts? (σ.schedule n) = none := by
      cases hev : σ.schedule n <;> simp [Executor.accepts?, hprev.closed]
    have hqueue := (σ.executor n).queue_react (σ.schedule n)
    rw [hnone, haccepts, hprev.empty] at hqueue
    refine ⟨?_, ?_, ?_⟩
    · rw [executor, Executor.current_react_of_none hprev.idle, hnone]
    · simpa [executor] using hqueue.symm
    · rw [executor, Executor.accepting_react, hprev.closed]
      rfl

/-- When the executor's thread has ended, every accepted job was carried out. -/
theorem executes_of_ended (h : (σ.executor n).ended = true) (hacc : σ.Accepts m ticket job) :
    ∃ b e r, e < n ∧ σ.Executes b e ticket job r := by
  have hdrained := drained_of_ended h
  have hmn : m < n := by
    by_contra hge
    have haccepting : (σ.executor n).accepting = true :=
      (σ.accepting_iff n).2 fun k hk => hacc.2 k (by omega)
    simp [hdrained.closed] at haccepting
  have hmem : (ticket, job) ∈ σ.accepted n := mem_accepted.2 ⟨m, hmn, hacc⟩
  rw [accepted_eq, hdrained.empty, List.append_nil] at hmem
  obtain ⟨b, hbn, hbegins⟩ := mem_begun.1 hmem
  rcases hbegins.runs_or_executes hbn with hruns | ⟨e, r, hen, hexec⟩
  · have hcurrent := hruns n hbn (Nat.le_refl n)
    simp [hdrained.idle] at hcurrent
  · exact ⟨b, e, r, hen, hexec⟩

/-! ## What receivers are sent -/

theorem mem_abandoned : ∀ {n : Nat}, ticket ∈ (σ.executor n).abandoned ↔
    ∃ k < n, σ.Drops k ticket
  | 0 => by simp [executor]
  | n + 1 => by
    have hsplit : (∃ k < n + 1, σ.Drops k ticket) ↔
        (∃ k < n, σ.Drops k ticket) ∨ σ.Drops n ticket := Nat.exists_lt_succ_right
    rw [hsplit, ← mem_abandoned, executor, Executor.abandoned_react, Drops]
    cases hev : σ.schedule n with
    | abandon t =>
      by_cases hissued : t < (σ.executor n).issued
      · have hmem : ticket ∈ t :: (σ.executor n).abandoned ↔
            ticket ∈ (σ.executor n).abandoned ∨ t = ticket := by
          rw [List.mem_cons, or_comm, eq_comm]
        simp only [hissued, if_true, hmem, Executor.Event.abandon.injEq]
        refine or_congr_right ⟨fun h => ⟨h, h ▸ hissued⟩, And.left⟩
      · simp only [hissued, if_false, Executor.Event.abandon.injEq]
        refine (or_iff_left ?_).symm
        rintro ⟨rfl, hlt⟩
        exact hissued hlt
    | _ => simp

theorem not_mem_abandoned (h : ∀ k < n, ¬σ.Drops k ticket) :
    ticket ∉ (σ.executor n).abandoned := by
  rw [mem_abandoned]
  rintro ⟨k, hk, hdrops⟩
  exact h k hk hdrops

theorem messages_succ (σ : Service V Q A R) (n ticket : Nat) : σ.messages (n + 1) ticket =
    σ.messages n ticket ++ (((σ.executor n).sends? (σ.schedule n)).toList.filter
      fun m => m.1 = ticket ∧ ticket ∉ (σ.executor n).abandoned).map Prod.snd := by
  rw [messages, executor, Executor.replies_react, List.filter_append, List.map_append, messages,
    List.filter_filter]
  congr 2
  refine List.filter_congr fun m _ => ?_
  by_cases hticket : m.1 = ticket <;> simp [hticket]

theorem messages_succ_of_silent
    (h : ∀ r, (σ.executor n).sends? (σ.schedule n) ≠ some (ticket, r)) :
    σ.messages (n + 1) ticket = σ.messages n ticket := by
  have hnone : ((σ.executor n).sends? (σ.schedule n)).toList.filter
      (fun m => m.1 = ticket ∧ ticket ∉ (σ.executor n).abandoned) = [] := by
    refine List.filter_eq_nil_iff.2 fun m hm hkept => ?_
    obtain ⟨rfl, -⟩ := of_decide_eq_true hkept
    exact h m.2 (Option.mem_toList.1 hm)
  rw [messages_succ, hnone, List.map_nil, List.append_nil]

/-- A ticket that no event replies to has no message. -/
theorem messages_eq_nil : ∀ {n : Nat},
    (∀ k < n, ∀ r, (σ.executor k).sends? (σ.schedule k) ≠ some (ticket, r)) →
    σ.messages n ticket = []
  | 0, _ => rfl
  | n + 1, h => by
    rw [messages_succ_of_silent (h n (Nat.lt_succ_self n))]
    exact messages_eq_nil fun k hk => h k (Nat.lt_succ_of_lt hk)

/-- A ticket that one event replies to has this message, unless its receiver was dropped
before. -/
theorem messages_of_sends (h : (σ.executor e).sends? (σ.schedule e) = some (ticket, r))
    (honly : ∀ n r', (σ.executor n).sends? (σ.schedule n) = some (ticket, r') → n = e) : ∀ n,
    σ.messages n ticket = if e < n ∧ ticket ∉ (σ.executor e).abandoned then [r] else []
  | 0 => by simp [messages, executor]
  | n + 1 => by
    have ih := messages_of_sends h honly n
    by_cases hne : n = e
    · subst hne
      rw [messages_succ, ih]
      by_cases hdropped : ticket ∈ (σ.executor n).abandoned <;> simp [h, hdropped]
    · have hlt : e < n + 1 ↔ e < n := by omega
      rw [messages_succ_of_silent fun r' hsends => hne (honly n r' hsends), ih]
      simp only [hlt]

/-- A reply comes from a job that ends, or is a refusal. -/
theorem sends?_cases (h : (σ.executor e).sends? (σ.schedule e) = some (ticket, r)) :
    (∃ job, σ.Refuses e ticket job) ∨ ∃ b job, σ.Executes b e ticket job r := by
  by_cases hsubmit : ∃ job, σ.schedule e = .submit job
  · obtain ⟨job, hev⟩ := hsubmit
    rw [hev, Executor.sends?] at h
    split at h
    · cases h
    · next hclosed =>
      obtain ⟨rfl, rfl⟩ := Prod.mk.inj (Option.some.inj h)
      refine Or.inl ⟨job, ⟨hev, Executor.fst_submit _ _⟩, ?_⟩
      rw [accepting_iff] at hclosed
      simpa using hclosed
  · rw [Executor.sends?_of_not_submit fun job hev => hsubmit ⟨job, hev⟩] at h
    exact Or.inr (exists_executes h)

theorem Executes.sends (h : σ.Executes b e ticket job r) :
    (σ.executor e).sends? (σ.schedule e) = some (ticket, r) := by
  rw [h.ends.1]
  have hcurrent := h.runs e h.lt (Nat.le_refl e)
  simp [Executor.sends?, Executor.ends?, hcurrent, h.ends.2]

theorem Refuses.sends (h : σ.Refuses m ticket job) :
    (σ.executor m).sends? (σ.schedule m) = some (ticket, .error .executorStopped) := by
  obtain ⟨⟨hev, rfl⟩, k, hk, hhangs⟩ := h
  have hclosed : (σ.executor m).accepting ≠ true := fun haccepting =>
    (σ.accepting_iff m).1 haccepting k hk hhangs
  simp [hev, Executor.sends?, hclosed, Executor.fst_submit]

/-- A job that is accepted is not refused. -/
theorem Accepts.not_refuses (h : σ.Accepts m ticket job) : ¬σ.Refuses m' ticket job' := by
  rintro ⟨hsubmits, k, hk, hhangs⟩
  obtain ⟨rfl, -⟩ := h.1.unique hsubmits
  exact h.2 k hk hhangs

/-- A job that is refused is not begun. -/
theorem Refuses.not_begins (h : σ.Refuses m ticket job) : ¬σ.Begins b ticket job' := by
  intro hbegins
  obtain ⟨m', -, hacc⟩ := hbegins.exists_accepts
  exact hacc.not_refuses h

/-- The receiver of an accepted job gets its reply when the job ends. -/
theorem Accepts.messages_eq (h : σ.Accepts m ticket job) (hexec : σ.Executes b e ticket job r)
    (n : Nat) :
    σ.messages n ticket = if e < n ∧ ticket ∉ (σ.executor e).abandoned then [r] else [] := by
  refine messages_of_sends hexec.sends (fun n r' hsends => ?_) n
  rcases sends?_cases hsends with ⟨job', hrefuses⟩ | ⟨b', job', hexec'⟩
  · exact absurd hrefuses h.not_refuses
  · exact hexec'.unique hexec

theorem Accepts.messages_eq_nil (h : σ.Accepts m ticket job)
    (hnone : ∀ b e r, σ.Executes b e ticket job r → n ≤ e) : σ.messages n ticket = [] := by
  refine Service.messages_eq_nil fun k hk r hsends => ?_
  rcases sends?_cases hsends with ⟨job', hrefuses⟩ | ⟨b, job', hexec⟩
  · exact h.not_refuses hrefuses
  · obtain ⟨m', -, hacc⟩ := hexec.begins.exists_accepts
    obtain ⟨-, rfl⟩ := h.1.unique hacc.1
    exact absurd (hnone b k r hexec) (Nat.not_le.2 hk)

/-- The receiver of a refused job gets the refusal at once. -/
theorem Refuses.messages_eq (h : σ.Refuses m ticket job) (n : Nat) :
    σ.messages n ticket = if m < n then [.error .executorStopped] else [] := by
  have honly : ∀ n r', (σ.executor n).sends? (σ.schedule n) = some (ticket, r') → n = m := by
    intro n r' hsends
    rcases sends?_cases hsends with ⟨job', hrefuses⟩ | ⟨b', job', hexec⟩
    · exact (hrefuses.1.unique h.1).1
    · exact absurd hexec.begins h.not_begins
  have hheard : ticket ∉ (σ.executor m).abandoned := by
    intro hmem
    obtain ⟨k, hk, -, hlt⟩ := mem_abandoned.1 hmem
    have hmono := σ.issued_mono (Nat.le_of_lt hk)
    rw [← h.1.issued_eq] at hlt
    exact absurd hmono (Nat.not_le.2 hlt)
  rw [messages_of_sends h.sends honly n]
  simp [hheard]

/-! ## Dropped receivers -/

/-- The executor goes through the same states when no receiver is dropped. -/
theorem forget_executor (σ : Service V Q A R) : ∀ n,
    (σ.attentive.executor n).forget = (σ.executor n).forget
  | 0 => rfl
  | n + 1 => by
    have hattentive : (σ.attentive.schedule n).attentive = (σ.schedule n).attentive :=
      (σ.schedule n).attentive_attentive
    rw [executor, executor, Executor.forget_react, σ.forget_executor n, hattentive,
      ← Executor.forget_react]

theorem current_attentive (σ : Service V Q A R) (n : Nat) :
    (σ.attentive.executor n).current = (σ.executor n).current := by
  have hcurrent := congrArg Executor.current (σ.forget_executor n)
  exact hcurrent

theorem sends?_attentive (σ : Service V Q A R) (n : Nat) :
    (σ.attentive.executor n).sends? (σ.attentive.schedule n) =
      (σ.executor n).sends? (σ.schedule n) := by
  rw [← Executor.sends?_forget, σ.forget_executor, attentive, Executor.Event.attentive_attentive,
    Executor.sends?_forget]

theorem accepts_attentive : σ.attentive.Accepts m ticket job ↔ σ.Accepts m ticket job := by
  rw [← accepts_iff, ← accepts_iff, ← Executor.accepts?_forget, σ.forget_executor, attentive,
    Executor.Event.attentive_attentive, Executor.accepts?_forget]

theorem remainder_attentive (σ : Service V Q A R) (b : Nat) (job : Job V Q A R) : ∀ n,
    σ.attentive.remainder b job n = σ.remainder b job n
  | 0 => rfl
  | n + 1 => by
    have hvalue := congrArg Executor.value (σ.forget_executor n)
    change (σ.attentive.executor n).value = (σ.executor n).value at hvalue
    rw [remainder, remainder, σ.remainder_attentive b job n, hvalue, attentive,
      Job.after_attentive]

/-- The same jobs are carried out when no receiver is dropped. -/
theorem executes_attentive :
    σ.attentive.Executes b e ticket job r ↔ σ.Executes b e ticket job r := by
  have hstep : σ.attentive.schedule e = .step ↔ σ.schedule e = .step :=
    Executor.Event.attentive_eq_step_iff
  constructor
  · rintro ⟨hbegins, hruns, hlt, hends⟩
    simp only [Begins, current_attentive, remainder_attentive, hstep] at hbegins hruns hends
    exact ⟨hbegins, hruns, hlt, hends⟩
  · rintro ⟨hbegins, hruns, hlt, hends⟩
    refine ⟨?_, ?_, hlt, ?_⟩
    · simpa only [Begins, current_attentive] using hbegins
    · simpa only [current_attentive, remainder_attentive] using hruns
    · simpa only [remainder_attentive, hstep] using hends

/-- A receiver that is not dropped gets the same messages when no other one is. -/
theorem messages_attentive : ∀ {n : Nat}, (∀ k < n, ¬σ.Drops k ticket) →
    σ.attentive.messages n ticket = σ.messages n ticket
  | 0, _ => rfl
  | n + 1, h => by
    have ih := messages_attentive fun k hk => h k (Nat.lt_succ_of_lt hk)
    have hheard : ticket ∉ (σ.executor n).abandoned :=
      not_mem_abandoned fun k hk => h k (Nat.lt_succ_of_lt hk)
    have hheard' : ticket ∉ (σ.attentive.executor n).abandoned :=
      not_mem_abandoned fun k _ hdrops => (σ.schedule k).attentive_ne_abandon hdrops.1
    simp only [messages_succ, ih, sends?_attentive, hheard, hheard']

/-! ## Delivery -/

/-- What is carried out was accepted, and is begun once. Jobs are carried out one at a time in
the order in which they were accepted. Every accepted job is, if the executor's thread goes on
and requests are replied to, and it has been when this thread has ended. The receiver of an
accepted job has no message before the job ends, and its reply from then on, unless it is
dropped. A refused job is never begun, and its receiver has the refusal and no other message.
When receivers are dropped, the same jobs are accepted and carried out with the same replies,
and the other receivers have the same messages. -/
theorem delivers_exactly_once (σ : Service V Q A R) :
    (∀ b t j, σ.Begins b t j →
      (∃ m < b, σ.Accepts m t j) ∧ ∀ b' j', σ.Begins b' t j' → b' = b) ∧
    (∀ m m' t t' j j' b', σ.Accepts m t j → σ.Accepts m' t' j' → m < m' → σ.Begins b' t' j' →
      ∃ b e r, e < b' ∧ σ.Executes b e t j r) ∧
    (σ.Fair → ∀ m t j, σ.Accepts m t j → ∃ b e r, σ.Executes b e t j r) ∧
    (∀ n, (σ.executor n).ended = true → ∀ m t j, σ.Accepts m t j →
      ∃ b e r, e < n ∧ σ.Executes b e t j r) ∧
    (∀ m t j n, σ.Accepts m t j →
      ((∀ b e r, σ.Executes b e t j r → n ≤ e) → σ.messages n t = []) ∧
      ∀ b e r, σ.Executes b e t j r → e < n → (∀ k < e, ¬σ.Drops k t) →
        σ.messages n t = [r]) ∧
    (∀ m t j n, σ.Refuses m t j → (∀ b j', ¬σ.Begins b t j') ∧
      σ.messages n t = if m < n then [.error .executorStopped] else []) ∧
    (∀ m t j, σ.attentive.Accepts m t j ↔ σ.Accepts m t j) ∧
    (∀ b e t j r, σ.attentive.Executes b e t j r ↔ σ.Executes b e t j r) ∧
    ∀ n t, (∀ k < n, ¬σ.Drops k t) → σ.attentive.messages n t = σ.messages n t := by
  refine ⟨?_, ?_, ?_, fun n h m t j => executes_of_ended h, ?_, ?_,
    fun m t j => accepts_attentive, fun b e t j r => executes_attentive,
    fun n t => messages_attentive⟩
  · intro b t j hbegins
    exact ⟨hbegins.exists_accepts, fun b' j' h' => (h'.unique hbegins).1⟩
  · intro m m' t t' j j' b' hacc hacc' hlt hbegins'
    obtain ⟨b, hlt', hbegins⟩ := hbegins'.exists_begins hacc (hacc.1.lt hacc'.1 hlt)
    obtain ⟨e, r, heb, hexec⟩ := hbegins.executes_of_lt hbegins' hlt'
    exact ⟨b, e, r, heb, hexec⟩
  · intro hfair m t j hacc
    obtain ⟨b, hbegins⟩ := hfair.begins_of_accepts hacc
    obtain ⟨e, r, hexec⟩ := hfair.exists_executes hbegins
    exact ⟨b, e, r, hexec⟩
  · intro m t j n hacc
    refine ⟨hacc.messages_eq_nil, fun b e r hexec hen hheard => ?_⟩
    have hkept : t ∉ (σ.executor e).abandoned := by
      rw [mem_abandoned]
      rintro ⟨k, hk, hdrops⟩
      exact hheard k hk hdrops
    rw [hacc.messages_eq hexec n, if_pos ⟨hen, hkept⟩]
  · intro m t j n hrefuses
    exact ⟨fun b j' => hrefuses.not_begins, hrefuses.messages_eq n⟩

/-! ## A service -/

/-- The service with these events, after which the executor's thread steps and requests are
replied to by turns. -/
def ofEvents (a : A) (events : List (Executor.Event V Q A R)) : Service V Q A R where
  lcore := .main 0
  schedule n := events[n]?.getD (if n % 2 = 0 then .step else .resume a)

theorem fair_ofEvents (a : A) (events : List (Executor.Event V Q A R)) :
    (ofEvents a events).Fair where
  steps n := by
    refine ⟨2 * (n + events.length), by omega, ?_⟩
    have hend : events[2 * (n + events.length)]? = none := List.getElem?_eq_none (by omega)
    simp [ofEvents, hend]
  replies n ticket q next _ := by
    refine ⟨2 * (n + events.length) + 1, by omega, a, ?_⟩
    have hend : events[2 * (n + events.length) + 1]? = none := List.getElem?_eq_none (by omega)
    simp [ofEvents, hend, Nat.add_mod]

/-- Five jobs. The first one makes a request. The receiver of the second one is dropped, and
the job ends in a panic. The third one stops the executor, after the fourth one was submitted
and before the fifth one is. -/
def relay : Service Nat Unit Nat Nat := ofEvents 0 [
  .submit (.ask () fun a => .put (some a) (.answer a)), .submit (.crash .other), .step,
  .submit (.look fun v => .stop (.answer (v.getD 0))), .step, .resume 7, .abandon 1,
  .step, .step, .step, .step, .step, .step,
  .submit (.answer 9), .step, .submit (.answer 5), .step, .step, .step, .step]

/-- In `relay` the third job is carried out before the fourth one is begun, which is carried
out though the executor was stopped, and the fifth one is refused. -/
theorem delivers_exactly_once_relay :
    (∃ m < 17, relay.Accepts m 3 (.answer 9)) ∧
    (∃ b e r, e < 17 ∧ relay.Executes b e 2 (.look fun v => .stop (.answer (v.getD 0))) r) ∧
    (∃ b e r, relay.Executes b e 3 (.answer 9) r) ∧
    (∃ b e r, e < 20 ∧ relay.Executes b e 3 (.answer 9) r) ∧
    relay.messages 16 2 = [] ∧ relay.messages 20 2 = [.ok 7] ∧
    relay.attentive.messages 20 2 = [.ok 7] ∧
    relay.messages 20 4 = [.error .executorStopped] := by
  have hthird : relay.Accepts 3 2 (.look fun v => .stop (.answer (v.getD 0))) :=
    ⟨⟨rfl, rfl⟩, (relay.accepting_iff 3).1 rfl⟩
  have hfourth : relay.Accepts 13 3 (.answer 9) := ⟨⟨rfl, rfl⟩, (relay.accepting_iff 13).1 rfl⟩
  have hfifth : relay.Refuses 15 4 (.answer 5) := ⟨⟨rfl, rfl⟩, 14, by decide, rfl⟩
  have hbegins : relay.Begins 17 3 (.answer 9) := ⟨rfl, rfl⟩
  have hexec : relay.Executes 11 16 2 (.look fun v => .stop (.answer (v.getD 0))) (.ok 7) := by
    refine ⟨⟨rfl, rfl⟩, fun n h11 h16 => ?_, by decide, rfl, rfl⟩
    interval_cases n <;> rfl
  have hheard : ∀ k < 20, ¬relay.Drops k 2 := by
    rintro k hk ⟨hdrops, -⟩
    interval_cases k <;> cases hdrops
  obtain ⟨haccepted, horder, hfair, hended, hreply, hrefused, -, -, hattentive⟩ :=
    delivers_exactly_once relay
  have honly : ∀ b e r, relay.Executes b e 2 (.look fun v => .stop (.answer (v.getD 0))) r →
      16 ≤ e := fun b e r h => Nat.le_of_eq (hexec.unique h)
  have hthird' := (hreply 3 2 _ 20 hthird).2 11 16 _ hexec (by decide) fun k hk =>
    hheard k (by omega)
  refine ⟨(haccepted 17 3 _ hbegins).1, horder 3 13 2 3 _ _ 17 hthird hfourth (by decide) hbegins,
    hfair (fair_ofEvents 0 _) 13 3 _ hfourth, hended 20 rfl 13 3 _ hfourth,
    (hreply 3 2 _ 16 hthird).1 honly, hthird', ?_, (hrefused 15 4 _ 20 hfifth).2⟩
  rw [hattentive 20 2 hheard, hthird']

end Service

end CoreFleet
