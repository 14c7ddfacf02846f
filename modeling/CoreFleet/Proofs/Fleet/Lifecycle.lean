import CoreFleet.Proofs.Fleet.Start

/-!
# The lifecycle of a worker

The states of a worker and the ways between them form a graph. `Edge` lists its edges with
what each of them takes : who makes the change, and what has happened before. In every run,
whatever changes the state of a worker follows an edge (`lifecycle_graph`), and there is
none from running to idle.

* The workers start to run together, and only a request to stop ends this.
* A request to stop is answered by the worker's own thread.
* A worker fails by a report of its own thread while it holds the unit that failed, and
  otherwise only when its thread exits after the shutdown.
* A failed worker that is not retired still holds the unit that failed (`Failed`). It
  recovers by a reset, or when this unit is cleared.
-/

namespace CoreFleet

/-- The slot records this failure of its unit. -/
structure Slot.Blames (s : Slot) (a : Assignment) (reason : String) : Prop where
  state : s.state = .error
  present : s.retired = false
  holds : s.assignment = some a
  text : s.error = some reason

namespace Run

/-- After `n` events the worker at `i` has failed with an execution of this unit. It has
recorded the failure ever since its thread reported it. -/
def Failed (ρ : Run) (n i : Nat) (a : Assignment) (reason : String) : Prop :=
  ∃ t, t < n ∧ ρ.Reports t i (some reason) ∧ (∃ m, ρ.Executes i m t (some a)) ∧
    ∀ u, t < u → u ≤ n → ∃ s, ρ.slot? u i = some s ∧ s.Blames a reason

/-- A way in which event `n` may change the state of the worker at `i`, which has slot `s`
before. -/
inductive Edge (ρ : Run) (n i : Nat) (s : Slot) : State → State → Prop
  /-- All workers are started together. -/
  | start (starts : ρ.Starts n)
    (before : ∀ j t, ρ.slot? n j = some t → t.state = .idle)
    (after : ∀ j t, ρ.slot? (n + 1) j = some t → t.state = .running) :
    Edge ρ n i s .idle .running
  | ask (asks : ρ.AsksToStop n i) : Edge ρ n i s .running .stopping
  /-- The thread reports a loop that ended well, or one whose unit was cleared meanwhile. -/
  | report {m : Nat} {snapshot : Option Assignment} {failure : Option String}
    (event : ρ.schedule n = .move i .report) (reports : ρ.Reports n i failure)
    (executes : ρ.Executes i m n snapshot) (blameless : failure = none ∨ s.assignment = none) :
    Edge ρ n i s .stopping .idle
  /-- The thread wakes up after a request to stop. Its loop has not run since the start. -/
  | settle {k : Nat} (event : ρ.schedule n = .move i .look) (last : ρ.LastStart k n)
    (outside : ∀ t snapshot, k < t → t < n → ¬ρ.Enters t i snapshot) :
    Edge ρ n i s .stopping .idle
  /-- The thread reports a failure of the unit that the worker holds. -/
  | fail {old : State} {m : Nat} {a : Assignment} {reason : String}
    (active : old = .running ∨ old = .stopping) (event : ρ.schedule n = .move i .report)
    (reports : ρ.Reports n i (some reason)) (executes : ρ.Executes i m n (some a))
    (holds : s.assignment = some a) : Edge ρ n i s old .error
  | retire {old : State} (event : ρ.schedule n = .move i .exit)
    (down : ∃ m, m < n ∧ ρ.op? m = some .shutdown) : Edge ρ n i s old .error
  | reset {id : Nat} {a : Assignment} {reason : String} (event : ρ.op? n = some (.reset id))
    (named : (ρ.fleet n).registry.index? id = some i) (failed : ρ.Failed n i a reason)
    (present : s.retired = false) : Edge ρ n i s .error .idle
  /-- The unit that failed is cleared. -/
  | clear {op : Operation} {a : Assignment} {reason : String} (event : ρ.op? n = some op)
    (clears : op.clears (ρ.fleet n).registry i = true) (holds : s.assignment = some a)
    (failed : ρ.Failed n i a reason) (present : s.retired = false) :
    Edge ρ n i s .error .idle

variable {ρ : Run} {n m i : Nat} {s s' : Slot} {p p' : Phase} {a : Assignment}
  {reason : String}

/-! ## Failed workers -/

theorem Failed.succ (h : ρ.Failed n i a reason) (hs' : ρ.slot? (n + 1) i = some s')
    (hblames : s'.Blames a reason) : ρ.Failed (n + 1) i a reason := by
  obtain ⟨t, htn, hreports, hexec, hsince⟩ := h
  refine ⟨t, by omega, hreports, hexec, fun u htu hun => ?_⟩
  rcases Nat.le_succ_iff.1 hun with hle | rfl
  · exact hsince u htu hle
  · exact ⟨s', hs', hblames⟩

theorem Failed.blames (h : ρ.Failed n i a reason) (hs : ρ.slot? n i = some s) :
    s.Blames a reason := by
  obtain ⟨t, htn, -, -, hsince⟩ := h
  obtain ⟨s', hs', hblames⟩ := hsince n htn (Nat.le_refl n)
  obtain rfl : s = s' := Option.some.inj (hs.symm.trans hs')
  exact hblames

/-- A worker that reports a failure is idle afterwards, or records it for the unit that it
has executed and still holds. -/
theorem finish_of_executing {snapshot : Option Assignment}
    (h : Executing snapshot s (.finishing (some reason))) :
    (s.finish (some reason)).state = .idle ∧ s.state = .stopping ∧ s.assignment = none ∨
    ∃ a, snapshot = some a ∧ s.assignment = some a ∧
      (s.finish (some reason)).Blames a reason := by
  obtain ⟨a, rfl⟩ : ∃ a, snapshot = some a := by
    cases h.runs with | failed unit => exact Option.ne_none_iff_exists'.1 unit
  by_cases hcleared : s.state = .stopping ∧ s.assignment = none
  · exact Or.inl ⟨by simp [Slot.finish, hcleared], hcleared⟩
  · have hholds : s.assignment = some a := h.unit.resolve_right hcleared
    refine Or.inr ⟨a, rfl, hholds, ?_⟩
    simp only [Slot.finish, if_neg hcleared]
    exact ⟨rfl, h.present, hholds, rfl⟩

/-- A failed worker that is not retired records a failure that its thread has reported. -/
theorem failed_of_error (ρ : Run) (i : Nat) : ∀ n s p, ρ.Has n i s p → s.state = .error →
    s.retired = false → ∃ a reason, ρ.Failed n i a reason := by
  refine worker_induction nofun ?_
  intro n s p s' p' h h' he ih herror hpresent
  have hgoes (hstate : s.state = .error) (hthere : s.retired = false)
      (hsame : s'.assignment = s.assignment ∧ s'.error = s.error) :
      ∃ a reason, ρ.Failed (n + 1) i a reason := by
    obtain ⟨a, reason, hfailed⟩ := ih hstate hthere
    have hblames := hfailed.blames h.1
    exact ⟨a, reason, hfailed.succ h'.1 ⟨herror, hpresent, hsame.1.trans hblames.holds,
      hsame.2.trans hblames.text⟩⟩
  cases he with
  | rest | close | pass | enter | poll | called | timed => exact hgoes herror hpresent ⟨rfl, rfl⟩
  | settle => simp at herror
  | exit => simp [Slot.retire] at hpresent
  | operate event change =>
    rcases change.of_error (Event.client_or_shutdown event) herror hpresent with rfl | rfl
    · exact hgoes herror hpresent ⟨rfl, rfl⟩
    · refine hgoes ?_ hpresent ⟨rfl, rfl⟩
      by_cases hrun : s.state = .running
      · simp [Slot.shutdown, hrun] at herror
      · simpa [Slot.shutdown, hrun] using herror
  | @report failure =>
    cases failure with
    | none => simp [Slot.finish] at herror
    | some reason =>
      obtain ⟨m, snapshot, hexec, hcoupled⟩ := executing_of_inside h rfl
      rcases finish_of_executing hcoupled with ⟨hidle, -⟩ | ⟨a, rfl, -, hblames⟩
      · simp [hidle] at herror
      · refine ⟨a, reason, n, Nat.lt_succ_self n, ⟨h.2, h'.2⟩, ⟨m, hexec⟩, fun u hnu hun => ?_⟩
        obtain rfl : u = n + 1 := by omega
        exact ⟨_, h'.1, hblames⟩

/-! ## The edges of the graph -/

/-- After a start every worker runs. -/
theorem running_of_starts (hstart : ρ.Starts n) (j : Nat) (t : Slot)
    (ht : ρ.slot? (n + 1) j = some t) : t.state = .running := by
  obtain ⟨q, hhas'⟩ := has_of_slot? ht
  obtain ⟨s, p, hhas⟩ := hhas'.pred
  obtain ⟨rfl, -⟩ := launch_of_starts hstart hhas hhas'
  rfl

/-- An operation follows an edge. -/
theorem edge_of_change {op : Operation} (h : ρ.Has n i s p) (event : ρ.op? n = some op)
    (change : (ρ.fleet n).registry.Change i s op s') (hne : s.state ≠ s'.state) :
    ρ.Edge n i s s.state s'.state := by
  rcases change.state_cases (Event.client_or_shutdown event) with
    ⟨hsame, -⟩ | ⟨rfl, ready, hidle, hrun⟩ | ⟨hasks, hrun, hstop⟩ | ⟨hfail, hidle, hhow⟩
  · exact absurd hsame.symm hne
  · have hstart : ρ.Starts n := ⟨event, ready⟩
    rw [hidle, hrun]
    exact .start hstart (starts_iff.1 hstart).2 (running_of_starts hstart)
  · rw [hrun, hstop]
    exact .ask ⟨op, event, hasks⟩
  · obtain ⟨herror, hpresent⟩ : s.state = .error ∧ s.retired = false := by
      simpa [Slot.recoverable] using hfail
    obtain ⟨a, reason, hfailed⟩ := failed_of_error ρ i n s p h herror hpresent
    rw [herror, hidle]
    rcases hhow with ⟨id, rfl, hnamed⟩ | hclears
    · exact .reset event hnamed hfailed hpresent
    · exact .clear event hclears (hfailed.blames h.1).holds hfailed hpresent

/-- A report follows an edge. -/
theorem edge_of_report {failure : Option String} (h : ρ.Has n i s (.finishing failure))
    (h' : ρ.Has (n + 1) i (s.finish failure) .waiting)
    (event : ρ.schedule n = .move i .report) :
    ρ.Edge n i s s.state (s.finish failure).state := by
  obtain ⟨m, snapshot, hexec, hcoupled⟩ := executing_of_inside h rfl
  have hreports : ρ.Reports n i failure := ⟨h.2, h'.2⟩
  cases failure with
  | none =>
    rw [hcoupled.asked rfl]
    exact .report event hreports hexec (Or.inl rfl)
  | some reason =>
    rcases finish_of_executing hcoupled with ⟨hidle, hstop, hnone⟩ | ⟨a, rfl, hholds, hblames⟩
    · rw [hidle, hstop]
      exact .report event hreports hexec (Or.inr hnone)
    · rw [hblames.state]
      exact .fail hcoupled.active event hreports hexec hholds

/-- A thread is about to exit only after the shutdown. -/
theorem shutdown_of_leaving (h : ρ.Has n i s .leaving) :
    ∃ m, m < n ∧ ρ.op? m = some .shutdown := by
  cases ρ.coupled i n s _ h with
  | executing hexec => cases hexec.runs
  | resting hrest => exact down_iff.1 (hrest.place.resolve_left nofun).2
  | gone hgone => cases hgone.place

/-- Every change of a worker's state follows an edge of the graph, and no worker goes from
running to idle directly. -/
theorem lifecycle_graph (ρ : Run) {n i : Nat} {s s' : Slot} (hs : ρ.slot? n i = some s)
    (hs' : ρ.slot? (n + 1) i = some s') :
    (s.state ≠ s'.state → ρ.Edge n i s s.state s'.state) ∧
      ¬(s.state = .running ∧ s'.state = .idle) := by
  obtain ⟨p, h⟩ := has_of_slot? hs
  obtain ⟨p', h'⟩ := has_of_slot? hs'
  have hedge : s.state ≠ s'.state → ρ.Edge n i s s.state s'.state := by
    intro hne
    cases h.effect h' with
    | rest | close | pass | enter | poll | called | timed => exact absurd rfl hne
    | operate event change => exact edge_of_change h event change hne
    | report event => exact edge_of_report h h' event
    | exit event => exact .retire event (shutdown_of_leaving h)
    | settle event stopping =>
      obtain ⟨k, hawaits⟩ := awaits_of_waiting ρ i n s _ h rfl (Or.inr stopping)
      rw [stopping]
      exact .settle event hawaits.last hawaits.outside
  refine ⟨hedge, fun ⟨hrun, hidle⟩ => ?_⟩
  have hnone := hedge (by simp [hrun, hidle])
  rw [hrun, hidle] at hnone
  cases hnone

/-- In `handover` the first worker is asked to stop by the clearing of its block, and
answers with its report. -/
theorem lifecycle_graph_handover : ∃ s t t' u : Slot,
    handover.slot? 8 0 = some s ∧ handover.slot? 9 0 = some t ∧
    s.state ≠ t.state ∧ handover.Edge 8 0 s s.state t.state ∧
    handover.slot? 15 0 = some t' ∧ handover.slot? 16 0 = some u ∧
    t'.state ≠ u.state ∧ handover.Edge 15 0 t' t'.state u.state := by
  obtain ⟨s, t, hs, ht, hask⟩ : ∃ s t : Slot, handover.slot? 8 0 = some s ∧
    handover.slot? 9 0 = some t ∧ s.state ≠ t.state := ⟨_, _, rfl, rfl, by decide⟩
  obtain ⟨t', u, ht', hu, hreport⟩ : ∃ t' u : Slot, handover.slot? 15 0 = some t' ∧
    handover.slot? 16 0 = some u ∧ t'.state ≠ u.state := ⟨_, _, rfl, rfl, by decide⟩
  exact ⟨s, t, t', u, hs, ht, hask, (lifecycle_graph handover hs ht).1 hask,
    ht', hu, hreport, (lifecycle_graph handover ht' hu).1 hreport⟩

end Run

end CoreFleet
