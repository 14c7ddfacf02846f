import CoreFleet.Proofs.Fleet.Lifecycle

/-!
# Failures and units

A worker's thread reports a failure in a later critical section than that in which the unit was
assigned, and much may happen in between. The report blames the unit that the worker holds, unless
the worker was asked to stop and holds none. `failures_attributed` says that this blames no unit
for the failure of another one.

* A worker has the text of a failure exactly if it has failed (`Slot.Explained`).
* As long as a worker executes a unit, it holds this unit, or none if the unit was cleared
  (`Executes.held_cases`) : it is given no other one before its report.
* A failure of a unit that was not cleared is recorded with the unit and the text with which its
  call failed (`Fails`), and stays so until the worker recovers or its thread exits (`Blamed`). A
  failure of a unit that was cleared leaves no trace.
-/

namespace CoreFleet

/-- The slot has the text of a failure exactly if its worker has failed. -/
def Slot.Explained (s : Slot) : Prop := s.error.isSome = true ↔ s.state = .error

/-! ## Failures of a loop -/

section Loop

variable {loop : Loop} {outcome : Outcome} {now reading : Nat} {reason : String}

/-- A loop that has not begun fails if its pipeline is gone. -/
theorem Loop.of_enter_eq_failed {tuning : Tuning} {alive : UnitId → Bool}
    {snapshot : Option Assignment}
    (h : Loop.enter tuning alive now snapshot = .finishing (some reason)) :
    ∃ ref, snapshot = some (.pipeline ref) ∧ alive ref.id = false ∧ ref.releasedText = reason := by
  unfold Loop.enter at h
  split at h
  case h_1 ref =>
    split at h
    case isTrue => cases h
    case isFalse hgone => exact ⟨ref, rfl, by simpa using hgone, by simpa using h⟩
  all_goals cases h

theorem Loop.poll_ne_failed (loop : Loop) (flag : Bool) :
    loop.poll flag ≠ .finishing (some reason) := by
  cases flag <;> nofun

/-- A loop fails after a call if the call does. -/
theorem Loop.of_afterCall_eq_failed (h : loop.afterCall outcome now = .finishing (some reason)) :
    loop.assignment? ≠ none ∧ outcome.failure = some reason := by
  unfold Loop.afterCall at h
  split at h
  · cases h
  all_goals
    split at h
    · cases h
    · rename_i hfailure
      refine ⟨nofun, ?_⟩
      simpa [hfailure] using h

/-- A loop fails after a timer call if the call does. -/
theorem Loop.of_afterTimer_eq_failed
    (h : loop.afterTimer outcome reading = .finishing (some reason)) :
    outcome.failure = some reason := by
  unfold Loop.afterTimer at h
  split at h
  · split at h <;> cases h
  · rename_i hfailure
    simpa [hfailure] using h

end Loop

/-! ## What operations do to texts and units -/

namespace Registry

variable {r : Registry} {i : Nat} {s s' : Slot} {op : Operation}

theorem explained_of_error_eq (h : s.Explained) (herror : s'.error = s.error)
    (hstate : s'.state = .error ↔ s.state = .error) : s'.Explained := by
  unfold Slot.Explained
  rw [herror, hstate]
  exact h

/-- An operation from outside sets and takes away the state of failure and its text together. -/
theorem Change.explained (hc : Change r i s op s') (hop : op.isClient = true ∨ op = .shutdown)
    (h : s.Explained) : s'.Explained := by
  cases hc with
  | keep => exact h
  | assign => exact explained_of_error_eq h rfl Iff.rfl
  | launch _ idle => exact explained_of_error_eq h rfl (by simp [Slot.launch, idle])
  | recover => simp [Slot.Explained, Slot.recover]
  | finish | retire => simp [Operation.isClient] at hop
  | release =>
    rcases s.release_cases with ⟨hrun, hs⟩ | ⟨-, hs⟩ | ⟨-, -, hs⟩ <;> rw [hs]
    · exact explained_of_error_eq h rfl (by simp [hrun])
    · simp [Slot.Explained]
    · exact explained_of_error_eq h rfl Iff.rfl
  | stop =>
    unfold stopSlot
    split
    case isTrue hrun => exact explained_of_error_eq h rfl (by simp [Slot.askToStop, hrun])
    case isFalse => exact h
  | shutdown =>
    refine explained_of_error_eq h rfl ?_
    by_cases hrun : s.state = .running <;> simp [Slot.shutdown, hrun]

/-- A report sets the state of failure and the text together, and takes away neither. -/
theorem explained_finish (h : s.Explained) (hstate : s.state ≠ .error) (failure : Option String) :
    (s.finish failure).Explained := by
  have hnone : s.error.isSome = false := Bool.eq_false_iff.2 fun hsome => hstate (h.1 hsome)
  unfold Slot.finish
  cases failure with
  | none => simp [Slot.Explained, hnone]
  | some reason =>
    dsimp only
    split
    · simp [Slot.Explained, hnone]
    · simp [Slot.Explained]

/-- The unit is gone that an operation clears. -/
theorem Change.of_clears (hc : Change r i s op s') (h : op.clears r i = true) :
    s'.assignment = none := by
  cases hc with
  | keep _ calm => exact nomatch calm.symm.trans (Operation.asksToStop_of_clears h)
  | assign gives => cases op <;> simp [Operation.gives, Operation.clears] at gives h
  | release => exact release_assignment s
  | recover | launch | stop | finish | retire | shutdown => simp [Operation.clears] at h

/-- A worker that is not idle keeps its unit, unless it is cleared. -/
theorem Change.of_not_clears (hc : Change r i s op s') (h : op.clears r i = false)
    (hidle : s.state ≠ .idle) : s'.assignment = s.assignment := by
  cases hc with
  | assign _ _ idle => exact absurd idle hidle
  | release clears => exact nomatch h.symm.trans clears
  | stop => exact stopSlot_assignment s
  | finish => exact finish_assignment ..
  | keep | recover | launch | retire | shutdown => rfl

end Registry

namespace Fleet

variable {f : Fleet} {e : Event} {i : Nat} {s s' : Slot} {p p' : Phase} {op : Operation}

/-- An operation changes slots alone. -/
theorem Effect.change (he : f.Effect i e s p s' p') (event : e.operation? = some op) :
    f.registry.Change i s op s' ∧ p' = p := by
  cases he with
  | rest quiet => exact nomatch event.symm.trans quiet
  | operate event' change =>
    obtain rfl := Option.some.inj (event.symm.trans event')
    exact ⟨change, rfl⟩
  | _ move => simp [move, Event.operation?] at event

/-- No thread gives or takes a unit. -/
theorem Effect.assignment_eq (he : f.Effect i e s p s' p') (quiet : e.operation? = none) :
    s'.assignment = s.assignment := by
  cases he with
  | operate event => exact nomatch event.symm.trans quiet
  | report => exact Registry.finish_assignment ..
  | _ => rfl

/-- A thread that comes to the end of its loop was past the gate before. -/
theorem Effect.inside_of_finishing {failure : Option String}
    (he : f.Effect i e s p s' (.finishing failure)) (hp : p ≠ .finishing failure) :
    p.inside = true := by
  generalize hend : Phase.finishing failure = p' at he hp
  cases he with
  | rest | operate => exact absurd rfl hp
  | close | pass | settle | report | exit => cases hend
  | enter | poll | called | timed => rfl

end Fleet

namespace Run

variable {ρ : Run} {k m n u i : Nat} {s s' : Slot} {p p' : Phase} {a : Assignment} {reason : String}
  {snapshot : Option Assignment}

/-- Event `n` takes its unit away from the worker at `i`. -/
def Clears (ρ : Run) (n i : Nat) : Prop :=
  ∃ op, ρ.op? n = some op ∧ op.clears (ρ.fleet n).registry i = true

/-- At event `n` the run loop of the worker at `i` ends with a failure of its unit. -/
inductive Fails (ρ : Run) (n i : Nat) : Assignment → String → Prop
  /-- A call or a timer call has failed or panicked. -/
  | called {a : Assignment} {loop : Loop} {point : Point} {outcome : Outcome} {now : Nat}
    {reason : String} (place : ρ.phase? n i = some (.looping loop point))
    (runs : loop.assignment? = some a) (event : ρ.schedule n = .move i (.back outcome now))
    (failure : outcome.failure = some reason) : Fails ρ n i a reason
  /-- The pipeline is gone when the loop begins. -/
  | released {ref : PipelineRef}
    (place : ρ.phase? n i = some (.entering (some (.pipeline ref))))
    (gone : (ρ.fleet n).alive ref.id = false) : Fails ρ n i (.pipeline ref) ref.releasedText

/-- After `n` events the worker at `i` bears the blame for an execution of `a` : its thread passed
the gate at event `m`, the loop failed with this text, and the thread reported so at event `u`.
Ever since, the worker has been in the state of failure with this unit and this text. -/
structure Blamed (ρ : Run) (n i m u : Nat) (a : Assignment) (reason : String) : Prop where
  fails : ∃ t, t < u ∧ ρ.Executes i m t (some a) ∧ ρ.Fails t i a reason
  executes : ρ.Executes i m u (some a)
  reports : ρ.Reports u i (some reason)
  before : u < n
  since : ∀ v, u < v → v ≤ n → ∃ s, ρ.slot? v i = some s ∧ s.Blames a reason

/-! ## The text of a failure -/

theorem explained (ρ : Run) (i : Nat) : ∀ n s p, ρ.Has n i s p → s.Explained := by
  refine worker_induction (fun l => ⟨nofun, nofun⟩) ?_
  intro n s p s' p' h h' he ih
  cases he with
  | rest | close | pass | enter | poll | called | timed => exact ih
  | operate event change => exact change.explained (Event.client_or_shutdown event) ih
  | settle _ stopping =>
    exact Registry.explained_of_error_eq ih rfl (by simp [stopping])
  | @report failure =>
    obtain ⟨m, snapshot, -, hexec⟩ := executing_of_inside h rfl
    refine Registry.explained_finish ih ?_ failure
    rcases hexec.active with hs | hs <;> simp [hs]
  | exit => exact ⟨fun _ => rfl, fun _ => rfl⟩

/-! ## The unit of an execution -/

/-- What a worker holds was given to it by an operation. -/
theorem exists_gives (ρ : Run) (i : Nat) (a : Assignment) : ∀ n s p, ρ.Has n i s p →
    s.assignment = some a → ∃ k op id, k < n ∧ ρ.op? k = some op ∧ op.gives = some (id, a) := by
  refine worker_induction nofun ?_
  intro n s p s' p' h h' he ih ha
  have hbefore (hsame : s.assignment = some a) :
      ∃ k op id, k < n + 1 ∧ ρ.op? k = some op ∧ op.gives = some (id, a) :=
    let ⟨k, op, id, hkn, hrest⟩ := ih hsame
    ⟨k, op, id, Nat.lt_succ_of_lt hkn, hrest⟩
  cases event : ρ.op? n with
  | none => exact hbefore (he.assignment_eq event ▸ ha)
  | some op =>
    rcases (he.change event).1.assignment_cases with hsame | hnone | ⟨id, b, hgives, -, hb, -⟩
    · exact hbefore (hsame ▸ ha)
    · exact nomatch hnone.symm.trans ha
    · obtain rfl := Option.some.inj (hb.symm.trans ha)
      exact ⟨n, op, id, Nat.lt_succ_self n, event, hgives⟩

/-- What a worker executes was given to it before its thread passed the gate. -/
theorem Executes.exists_gives (h : ρ.Executes i m n (some a)) :
    ∃ k op id, k < m ∧ ρ.op? k = some op ∧ op.gives = some (id, a) := by
  obtain ⟨s, hhas, -, ha, -⟩ := h.2.1.running
  exact ρ.exists_gives i a m s _ hhas ha

/-- A worker that is not idle keeps its unit at an event, unless the event clears it. -/
theorem clears_or_keeps (h : ρ.Has n i s p) (h' : ρ.Has (n + 1) i s' p') (hidle : s.state ≠ .idle) :
    ρ.Clears n i ∧ s'.assignment = none ∨ ¬ρ.Clears n i ∧ s'.assignment = s.assignment := by
  have he := h.effect h'
  cases event : ρ.op? n with
  | none =>
    refine Or.inr ⟨?_, he.assignment_eq event⟩
    rintro ⟨op, event', -⟩
    exact nomatch event.symm.trans event'
  | some op =>
    obtain ⟨change, -⟩ := he.change event
    cases hclears : op.clears (ρ.fleet n).registry i with
    | true => exact Or.inl ⟨⟨op, event, hclears⟩, change.of_clears hclears⟩
    | false =>
      refine Or.inr ⟨fun ⟨op', event', hclears'⟩ => ?_, change.of_not_clears hclears hidle⟩
      obtain rfl := Option.some.inj (event.symm.trans event')
      exact nomatch hclears.symm.trans hclears'

/-- As long as a worker executes a snapshot, it holds it, unless it was cleared since its thread
passed the gate. Then it holds nothing. -/
theorem Executes.held_cases : ∀ {n : Nat}, ρ.Executes i m n snapshot → ∃ s p, ρ.Has n i s p ∧
    ((∃ c, m < c ∧ c < n ∧ ρ.Clears c i) ∧ s.assignment = none ∨
      (∀ c, m < c → c < n → ¬ρ.Clears c i) ∧ s.assignment = snapshot)
  | 0, h => absurd h.1 (Nat.not_lt_zero m)
  | n + 1, h => by
    rcases Nat.lt_succ_iff_lt_or_eq.1 h.1 with hmn | rfl
    · obtain ⟨s, p, hhas, hcases⟩ := (h.pred hmn).held_cases
      obtain ⟨t, q, hhas', hexec, -⟩ := (h.pred hmn).executing
      obtain ⟨rfl, rfl⟩ := hhas.unique hhas'
      obtain ⟨s', p', hnext⟩ := hhas.succ
      refine ⟨s', p', hnext, ?_⟩
      rcases clears_or_keeps hhas hnext hexec.state_ne_idle with ⟨hclears, hnone⟩ | ⟨hkeeps, hsame⟩
      · exact Or.inl ⟨⟨n, hmn, Nat.lt_succ_self n, hclears⟩, hnone⟩
      · rcases hcases with ⟨⟨c, hmc, hcn, hclears⟩, hnone⟩ | ⟨hkept, hheld⟩
        · exact Or.inl ⟨⟨c, hmc, Nat.lt_succ_of_lt hcn, hclears⟩, hsame.trans hnone⟩
        · refine Or.inr ⟨fun c hmc hcn => ?_, hsame.trans hheld⟩
          rcases Nat.lt_succ_iff_lt_or_eq.1 hcn with hlt | rfl
          · exact hkept c hmc hlt
          · exact hkeeps
    · obtain ⟨s, hhas, hrun, hsnapshot, hquiet⟩ := h.2.1.running
      obtain ⟨s', p', hnext⟩ := hhas.succ
      have hsame := (hhas.effect hnext).assignment_eq hquiet
      exact ⟨s', p', hnext, Or.inr ⟨fun c hmc hcm => by omega, hsame.trans hsnapshot⟩⟩

/-! ## From a call that fails to the report -/

/-- A run loop ends with a failure only if its unit fails. -/
theorem fails_of_finishing (h : ρ.Has n i s p)
    (h' : ρ.Has (n + 1) i s' (.finishing (some reason))) (hp : p ≠ .finishing (some reason))
    (hexec : Executing snapshot s p) : ∃ a, snapshot = some a ∧ ρ.Fails n i a reason := by
  generalize hend : Phase.finishing (some reason) = p' at h'
  cases h.effect h' with
  | rest | operate => exact absurd hend.symm hp
  | close | pass | settle | report | exit => cases hend
  | poll => exact absurd hend.symm (Loop.poll_ne_failed _ _)
  | enter event =>
    obtain ⟨ref, rfl, hgone, rfl⟩ := Loop.of_enter_eq_failed hend.symm
    cases hexec.runs with
    | entering => exact ⟨_, rfl, .released h.2 hgone⟩
  | called event =>
    obtain ⟨hunit, hfailure⟩ := Loop.of_afterCall_eq_failed hend.symm
    obtain ⟨a, ha⟩ := Option.ne_none_iff_exists'.1 hunit
    cases hexec.runs with
    | looping same => exact ⟨a, same ▸ ha, .called h.2 ha event hfailure⟩
  | timed event =>
    cases hexec.runs with
    | looping same timer =>
      obtain ⟨a, rfl⟩ := Option.ne_none_iff_exists'.1 (timer _ rfl)
      exact ⟨a, rfl, .called h.2 same event (Loop.of_afterTimer_eq_failed hend.symm)⟩

/-- A thread that is about to report a failure executes a unit that has failed with this text. -/
theorem exists_fails (ρ : Run) (i : Nat) (reason : String) : ∀ n s p, ρ.Has n i s p →
    p = .finishing (some reason) → ∃ m a t, ρ.Executes i m n (some a) ∧ t < n ∧
      ρ.Executes i m t (some a) ∧ ρ.Fails t i a reason := by
  refine worker_induction nofun ?_
  rintro n s p s' p' h h' he ih rfl
  by_cases hp : p = .finishing (some reason)
  · obtain ⟨m, a, t, hexec, htn, hthen, hfails⟩ := ih hp
    have hnot : ρ.phase? (n + 1) i ≠ some .waiting := by simp [h'.2]
    exact ⟨m, a, t, hexec.succ hnot, Nat.lt_succ_of_lt htn, hthen, hfails⟩
  · obtain ⟨m, snapshot, hexec, hcoupled⟩ := executing_of_inside h (he.inside_of_finishing hp)
    obtain ⟨a, rfl, hfails⟩ := fails_of_finishing h h' hp hcoupled
    have hnot : ρ.phase? (n + 1) i ≠ some .waiting := by simp [h'.2]
    exact ⟨m, a, n, hexec.succ hnot, Nat.lt_succ_self n, hexec, hfails⟩

/-! ## What a report of a failure leaves -/

/-- After its thread has reported a failure, a worker is idle and holds nothing if its unit was
cleared during the execution. Otherwise it records the failure with the unit. -/
theorem Executes.report_cases (h : ρ.Executes i m n (some a))
    (hreports : ρ.Reports n i (some reason)) : ∃ s', ρ.slot? (n + 1) i = some s' ∧
      ((∃ c, m < c ∧ c < n ∧ ρ.Clears c i) ∧
          s'.state = .idle ∧ s'.assignment = none ∧ s'.error = none ∨
        (∀ c, m < c → c < n → ¬ρ.Clears c i) ∧ s'.Blames a reason) := by
  obtain ⟨s, p, hhas, hheld⟩ := h.held_cases
  obtain ⟨t, q, hhas', hexec, -⟩ := h.executing
  obtain ⟨rfl, rfl⟩ := hhas.unique hhas'
  obtain rfl : p = .finishing (some reason) := Option.some.inj (hhas.2.symm.trans hreports.1)
  obtain ⟨s', hnext⟩ := has_of_phase? hreports.2
  refine ⟨s', hnext.1, ?_⟩
  have hexplained := ρ.explained i (n + 1) s' _ hnext
  cases hhas.effect hnext with
  | report =>
    rcases finish_of_executing hexec with ⟨hidle, -, hnone⟩ | ⟨b, -, hb, hblames⟩
    · refine Or.inl ⟨(hheld.resolve_right fun hkept => ?_).1, hidle, ?_, ?_⟩
      · exact nomatch hnone.symm.trans hkept.2
      · rw [Registry.finish_assignment, hnone]
      · refine Option.not_isSome_iff_eq_none.1 fun hsome => ?_
        exact nomatch hidle.symm.trans (hexplained.1 hsome)
    · obtain ⟨hkept, ha⟩ := hheld.resolve_left fun hcleared => nomatch hb.symm.trans hcleared.2
      obtain rfl := Option.some.inj (hb.symm.trans ha)
      exact Or.inr ⟨hkept, hblames⟩

/-- A failed worker that is not retired bears the blame for an execution. -/
theorem exists_blamed (hs : ρ.slot? n i = some s) (herror : s.state = .error)
    (hpresent : s.retired = false) : ∃ m u a reason, ρ.Blamed n i m u a reason := by
  obtain ⟨p, hhas⟩ := has_of_slot? hs
  obtain ⟨a, reason, u, hun, hreports, ⟨m, hexec⟩, hsince⟩ :=
    failed_of_error ρ i n s p hhas herror hpresent
  obtain ⟨t, ht⟩ := has_of_phase? hreports.1
  obtain ⟨m', a', v, hexec', hvu, hthen, hfails⟩ := exists_fails ρ i reason u t _ ht rfl
  obtain ⟨-, -, -, -, hlaunched⟩ := hexec.executing
  obtain ⟨-, -, -, -, hlaunched'⟩ := hexec'.executing
  obtain rfl := Option.some.inj (hlaunched.symm.trans hlaunched')
  exact ⟨m', u, a, reason, ⟨v, hvu, hthen, hfails⟩, hexec', hreports, hun, hsince⟩

/-- Whoever is idle after a report bears no blame later for an execution that began before it. -/
theorem Blamed.lt_of_idle {failure : Option String} (h : ρ.Blamed k i m u a reason) (hnk : n < k)
    (hreports : ρ.Reports n i failure) (hs' : ρ.slot? (n + 1) i = some s')
    (hidle : s'.state = .idle) : n < m := by
  have hnu : n < u := by
    refine Nat.lt_of_not_le fun hun => ?_
    obtain ⟨t, ht, hblames⟩ := h.since (n + 1) (Nat.lt_succ_of_le hun) hnk
    obtain rfl := Option.some.inj (hs'.symm.trans ht)
    exact nomatch hidle.symm.trans hblames.state
  rcases Nat.lt_trichotomy n m with hlt | rfl | hlt
  · exact hlt
  · exact nomatch hreports.1.symm.trans h.executes.2.1.1
  · exact absurd hreports (h.executes.2.2 n failure hlt hnu)

/-- Failures are told of the units that failed. After any number of events, a worker has the text
of a failure exactly if it has failed. If it has, and its thread is there, it holds the unit whose
execution has failed and the text of this failure, and has done so since the report. The report of
a failure leads there unless the unit was cleared during the execution. If it was, the worker is
idle afterwards, holds nothing and has no text, and whatever it is blamed for later began after
this report. -/
theorem failures_attributed (ρ : Run) (i : Nat) :
    (∀ n s, ρ.slot? n i = some s → (s.error.isSome = true ↔ s.state = .error)) ∧
    (∀ n s, ρ.slot? n i = some s → s.state = .error → s.retired = false →
      ∃ m u a reason, ρ.Blamed n i m u a reason ∧ s.assignment = some a ∧
        s.error = some reason) ∧
    (∀ m n a reason, ρ.Executes i m n (some a) → ρ.Reports n i (some reason) →
      (∀ c, m < c → c < n → ¬ρ.Clears c i) →
      ∃ s', ρ.slot? (n + 1) i = some s' ∧ s'.Blames a reason) ∧
    ∀ m n a reason, ρ.Executes i m n (some a) → ρ.Reports n i (some reason) →
      (∃ c, m < c ∧ c < n ∧ ρ.Clears c i) →
      (∃ s', ρ.slot? (n + 1) i = some s' ∧ s'.state = .idle ∧ s'.assignment = none ∧
        s'.error = none) ∧
      ∀ k m' u b text, n < k → ρ.Blamed k i m' u b text → n < m' := by
  refine ⟨fun n s hs => ?_, fun n s hs herror hpresent => ?_, ?_, ?_⟩
  · obtain ⟨p, hhas⟩ := has_of_slot? hs
    exact ρ.explained i n s p hhas
  · obtain ⟨m, u, a, reason, hblamed⟩ := exists_blamed hs herror hpresent
    obtain ⟨t, ht, hblames⟩ := hblamed.since n hblamed.before (Nat.le_refl n)
    obtain rfl := Option.some.inj (hs.symm.trans ht)
    exact ⟨m, u, a, reason, hblamed, hblames.holds, hblames.text⟩
  · intro m n a reason hexec hreports hkept
    obtain ⟨s', hs', ⟨⟨c, hmc, hcn, hclears⟩, -⟩ | ⟨-, hblames⟩⟩ := hexec.report_cases hreports
    · exact absurd hclears (hkept c hmc hcn)
    · exact ⟨s', hs', hblames⟩
  · rintro m n a reason hexec hreports ⟨c, hmc, hcn, hclears⟩
    obtain ⟨s', hs', ⟨-, hidle, hnone, htext⟩ | ⟨hkept, -⟩⟩ := hexec.report_cases hreports
    · exact ⟨⟨s', hs', hidle, hnone, htext⟩, fun k m' u b text hnk hblamed =>
        hblamed.lt_of_idle hnk hreports hs' hidle⟩
    · exact absurd hclears (hkept c hmc hcn)

/-- A worker loses its block during a call, which fails. It is given another block and started
again, and this one panics. -/
def secondFailure : Run := .ofEvents [.worker 1] [
  .operate (.assignBlock 1 rx) (.refl true), .operate .start (.refl true), .move 0 .look,
  .move 0 (.enter 0), .move 0 .poll, .operate (.clearBlock rx) (.refl true),
  .move 0 (.back (.failed "bad table") 0), .move 0 .report,
  .operate (.assignBlock 1 tx) (.refl true), .operate .start (.refl true), .move 0 .look,
  .move 0 (.enter 0), .move 0 .poll, .move 0 (.back (.panicked (.text "no buffer")) 0),
  .move 0 .report]

/-- In `secondFailure` the report at event 7 leaves no trace, and the one at event 14 blames the
second block with the text of its panic. -/
theorem failures_attributed_secondFailure :
    secondFailure.Executes 0 2 7 (some (.block rx)) ∧
    secondFailure.Reports 7 0 (some "bad table") ∧ secondFailure.Clears 5 0 ∧
    (∃ s', secondFailure.slot? 8 0 = some s' ∧ s'.state = .idle ∧ s'.assignment = none ∧
      s'.error = none) ∧
    secondFailure.Executes 0 10 14 (some (.block tx)) ∧
    secondFailure.Reports 14 0 (some "panicked: no buffer") ∧
    (∀ c, 10 < c → c < 14 → ¬secondFailure.Clears c 0) ∧
    (∃ s', secondFailure.slot? 15 0 = some s' ∧
      s'.Blames (.block tx) "panicked: no buffer") ∧
    ∃ s m u a reason, secondFailure.slot? 15 0 = some s ∧ s.state = .error ∧ s.retired = false ∧
      (s.error.isSome = true ↔ s.state = .error) ∧ secondFailure.Blamed 15 0 m u a reason ∧
      s.assignment = some a ∧ s.error = some reason ∧ 7 < m := by
  have hrx : secondFailure.Executes 0 2 7 (some (.block rx)) :=
    executes_of_phases (by decide) ⟨rfl, rfl⟩ (by decide)
  have htx : secondFailure.Executes 0 10 14 (some (.block tx)) :=
    executes_of_phases (by decide) ⟨rfl, rfl⟩ (by decide)
  have hcleared : secondFailure.Clears 5 0 := ⟨_, rfl, rfl⟩
  have hkept : ∀ c, 10 < c → c < 14 → ¬secondFailure.Clears c 0 := by
    rintro c h10 h14 ⟨op, event, -⟩
    obtain rfl | rfl | rfl : c = 11 ∨ c = 12 ∨ c = 13 := by omega
    all_goals cases event
  obtain ⟨s, hs, herror, hpresent⟩ : ∃ s, secondFailure.slot? 15 0 = some s ∧ s.state = .error ∧
    s.retired = false := ⟨_, rfl, rfl, rfl⟩
  obtain ⟨htexts, hblames, hfails, hclears⟩ := failures_attributed secondFailure 0
  obtain ⟨hidle, hlater⟩ :=
    hclears 2 7 _ "bad table" hrx ⟨rfl, rfl⟩ ⟨5, by decide, by decide, hcleared⟩
  obtain ⟨m, u, a, reason, hblamed, hheld, htext⟩ := hblames 15 s hs herror hpresent
  exact ⟨hrx, ⟨rfl, rfl⟩, hcleared, hidle, htx, ⟨rfl, rfl⟩, hkept,
    hfails 10 14 _ _ htx ⟨rfl, rfl⟩ hkept, s, m, u, a, reason, hs, herror, hpresent,
    htexts 15 s hs, hblamed, hheld, htext, hlater 15 m u a reason (by decide) hblamed⟩

end Run

end CoreFleet
