import CoreFleet.Proofs.Fleet.Execution
import Mathlib.Logic.ExistsUnique

/-!
# Starts and executions

The snapshot that a thread executes is taken later than the start that opened the gate, in
another critical section, and much may happen in between. `executions_match_starts` says
that nothing of it is mixed up. Each execution comes from one start (`Causes`) : the worker
has been running ever since. No two executions of a worker come from one start, and the
snapshot is what the worker held when it was started. If the worker is asked to stop before
its thread has woken up, the start causes no execution of it, and its thread makes no call
until the next start.

Two facts about one worker carry this. A thread that waits while its worker is running or
stopping has not passed the gate since the last start, and as long as the worker is running
it holds what it was started with (`awaits_of_waiting`). A worker is `Spent` if its
thread cannot pass the gate ; it becomes so by an execution or by a request to stop, and
stays so until the next start (`spent_succ`).
-/

namespace CoreFleet

/-- The thread of a worker cannot pass the gate before the next start. -/
def Spent (s : Slot) (p : Phase) : Prop := p = .waiting → s.state ≠ .running

namespace Run

variable {ρ : Run} {k n m i : Nat} {s s' : Slot} {p p' : Phase} {snapshot : Option Assignment}

/-- The worker at `i` is running after `n` events. -/
def Running (ρ : Run) (n i : Nat) : Prop := ∃ s, ρ.slot? n i = some s ∧ s.state = .running

/-- The start at event `k` is the last one among the first `n` events. -/
def LastStart (ρ : Run) (k n : Nat) : Prop :=
  k < n ∧ ρ.Starts k ∧ ∀ t, k < t → t < n → ¬ρ.Starts t

/-- The start at event `k` causes the execution that the worker at `i` enters at event `n` :
the worker has been running ever since. -/
def Causes (ρ : Run) (k i n : Nat) : Prop :=
  k < n ∧ ρ.Starts k ∧ (∃ snapshot, ρ.Enters n i snapshot) ∧
    ∀ t, k < t → t ≤ n → ρ.Running t i

theorem not_starts_of_running (h : ρ.Running n i) : ¬ρ.Starts n := by
  intro hstart
  obtain ⟨s, hs, hrun⟩ := h
  simp [(starts_iff.1 hstart).2 i s hs] at hrun

theorem LastStart.succ (h : ρ.LastStart k n) (hn : ¬ρ.Starts n) : ρ.LastStart k (n + 1) := by
  refine ⟨Nat.lt_succ_of_lt h.1, h.2.1, fun t hkt htn => ?_⟩
  rcases Nat.lt_succ_iff_lt_or_eq.1 htn with hlt | rfl
  · exact h.2.2 t hkt hlt
  · exact hn

/-- The gate opens for a worker that is running, when its thread looks. -/
theorem Enters.running (h : ρ.Enters n i snapshot) : ∃ s, ρ.Has n i s .waiting ∧
    s.state = .running ∧ s.assignment = snapshot ∧ ρ.op? n = none := by
  obtain ⟨s, hhas⟩ := has_of_phase? h.1
  obtain ⟨s', hhas'⟩ := has_of_phase? h.2
  cases hhas.effect hhas' with
  | pass event running =>
    exact ⟨s, hhas, running, rfl, by simp [op?, event, Event.operation?]⟩

/-! ## From a start to the gate -/

/-- The start at event `k` is the last one among the first `n`, and since then the thread of
the worker at `i` has not passed the gate. If the worker is still running, with slot `s`, it
has been running ever since, with what it was started with. -/
structure Awaits (ρ : Run) (k n i : Nat) (s : Slot) : Prop where
  last : ρ.LastStart k n
  outside : ∀ t snapshot, k < t → t < n → ¬ρ.Enters t i snapshot
  held : s.state = .running → (ρ.fleet k).registry.held i = s.assignment
  running : s.state = .running → ∀ t, k < t → t ≤ n → ρ.Running t i

theorem Awaits.succ (h : ρ.Awaits k n i s) (h' : ρ.Has (n + 1) i s' .waiting)
    (hstart : ¬ρ.Starts n)
    (hrun : s'.state = .running → s.state = .running ∧ s'.assignment = s.assignment) :
    ρ.Awaits k (n + 1) i s' where
  last := h.last.succ hstart
  outside t snapshot hkt htn henters := by
    rcases Nat.lt_succ_iff_lt_or_eq.1 htn with hlt | rfl
    · exact h.outside t snapshot hkt hlt henters
    · exact nomatch henters.2.symm.trans h'.2
  held hs := (h.held (hrun hs).1).trans (hrun hs).2.symm
  running hs t hkt htn := by
    rcases Nat.le_succ_iff.1 htn with hle | rfl
    · exact h.running (hrun hs).1 t hkt hle
    · exact ⟨s', h'.1, hs⟩

/-- A thread that waits while its worker is running or stopping has not passed the gate
since the last start. -/
theorem awaits_of_waiting (ρ : Run) (i : Nat) : ∀ n s p, ρ.Has n i s p → p = .waiting →
    s.state = .running ∨ s.state = .stopping → ∃ k, ρ.Awaits k n i s := by
  refine worker_induction (fun l _ h => by rcases h with h | h <;> cases h) ?_
  intro n s p s' p' h h' he ih hwait hactive
  have hhas' : ρ.Has (n + 1) i s' .waiting := hwait ▸ h'
  rcases he.of_waiting hwait with ⟨hp, ⟨quiet, rfl⟩ | ⟨op, event, change⟩⟩ | hs | hs
  · obtain ⟨k, hawaits⟩ := ih hp hactive
    have hstart : ¬ρ.Starts n := fun hstart => nomatch quiet.symm.trans hstart.1
    exact ⟨k, hawaits.succ hhas' hstart fun hs => ⟨hs, rfl⟩⟩
  · by_cases hstart : ρ.Starts n
    · obtain ⟨hlaunch, -⟩ := launch_of_starts hstart h h'
      refine ⟨n, ⟨Nat.lt_succ_self n, hstart, fun t hnt htn => by omega⟩,
        fun t _ hnt htn => by omega, fun _ => ?_, fun hs t hnt htn => ?_⟩
      · rw [Registry.held_eq h.1, hlaunch, Slot.launch]
      · obtain rfl : t = n + 1 := by omega
        exact ⟨s', h'.1, hs⟩
    · have hop := Event.client_or_shutdown event
      have hrefused := refused_of_not_starts event hstart
      have hbefore : s.state = .running ∨ s.state = .stopping := by
        rcases hactive with hrun | hstop
        · exact Or.inl (change.of_running hop hrefused hrun).1
        · exact change.of_stopping hop hstop
      obtain ⟨k, hawaits⟩ := ih hp hbefore
      exact ⟨k, hawaits.succ hhas' hstart (change.of_running hop hrefused)⟩
  · simp [hs] at hactive
  · simp [hs] at hactive

/-- The start that causes an execution. -/
theorem Enters.exists_causes (h : ρ.Enters n i snapshot) :
    ∃ k, ρ.Causes k i n ∧ (ρ.fleet k).registry.held i = snapshot := by
  obtain ⟨s, hhas, hrun, hsnapshot, -⟩ := h.running
  obtain ⟨k, hawaits⟩ := awaits_of_waiting ρ i n s _ hhas rfl (Or.inl hrun)
  exact ⟨k, ⟨hawaits.last.1, hawaits.last.2.1, ⟨snapshot, h⟩, hawaits.running hrun⟩,
    (hawaits.held hrun).trans hsnapshot⟩

theorem LastStart.unique {k' : Nat} (h : ρ.LastStart k n) (h' : ρ.LastStart k' n) : k = k' := by
  rcases Nat.lt_trichotomy k k' with hlt | heq | hlt
  · exact absurd h'.2.1 (h.2.2 k' hlt h'.1)
  · exact heq
  · exact absurd h.2.1 (h'.2.2 k hlt h.1)

/-- An execution comes from the last start, since a start is refused while the worker runs. -/
theorem Causes.lastStart (h : ρ.Causes k i n) : ρ.LastStart k n :=
  ⟨h.1, h.2.1, fun t hkt htn => not_starts_of_running (h.2.2.2 t hkt (Nat.le_of_lt htn))⟩

/-! ## Spent workers -/

/-- A worker is spent until it is started. -/
theorem spent_succ (h : ρ.Has n i s p) (h' : ρ.Has (n + 1) i s' p') (hstart : ¬ρ.Starts n)
    (hspent : Spent s p) : Spent s' p' := by
  intro hwait hrun
  rcases (h.effect h').of_waiting hwait with
    ⟨hp, ⟨-, rfl⟩ | ⟨op, event, change⟩⟩ | hs | hs
  · exact hspent hp hrun
  · have hop := Event.client_or_shutdown event
    exact hspent hp (change.of_running hop (refused_of_not_starts event hstart) hrun).1
  · simp [hs] at hrun
  · simp [hs] at hrun

/-- A thread outside of the run loop stays there, unless it passes the gate. -/
theorem outside_succ (h : ρ.Has n i s p) (h' : ρ.Has (n + 1) i s' p')
    (henters : ∀ snapshot, ¬ρ.Enters n i snapshot) (hp : p.inside = false) :
    p'.inside = false := by
  cases h.effect h' with
  | rest | operate => exact hp
  | close | settle | report | exit => rfl
  | pass => exact absurd ⟨h.2, h'.2⟩ (henters _)
  | enter | poll | called | timed => cases hp

theorem spent_of_le {a : Nat} (han : a ≤ n) (hstart : ∀ t, a ≤ t → t < n → ¬ρ.Starts t)
    (ha : ∀ s p, ρ.Has a i s p → Spent s p) : ∀ s p, ρ.Has n i s p → Spent s p := by
  induction han with
  | refl => exact ha
  | @step n han ih =>
    intro s' p' h'
    obtain ⟨s, p, h⟩ := h'.pred
    have hspent := ih (fun t hat htn => hstart t hat (Nat.lt_succ_of_lt htn)) s p h
    exact spent_succ h h' (hstart n han (Nat.lt_succ_self n)) hspent

theorem outside_of_le {a : Nat} (han : a ≤ n)
    (henters : ∀ t snapshot, a ≤ t → t < n → ¬ρ.Enters t i snapshot)
    (ha : ∀ s p, ρ.Has a i s p → p.inside = false) :
    ∀ s p, ρ.Has n i s p → p.inside = false := by
  induction han with
  | refl => exact ha
  | @step n han ih =>
    intro s' p' h'
    obtain ⟨s, p, h⟩ := h'.pred
    have hout := ih (fun t snapshot hat htn => henters t snapshot hat (Nat.lt_succ_of_lt htn)) s p h
    exact outside_succ h h' (fun snapshot => henters n snapshot han (Nat.lt_succ_self n)) hout

/-- The gate is closed for a spent worker. -/
theorem Enters.not_spent (h : ρ.Enters n i snapshot) : ¬∀ s p, ρ.Has n i s p → Spent s p := by
  obtain ⟨s, hhas, hrun, -⟩ := h.running
  exact fun hspent => hspent s .waiting hhas rfl hrun

/-- An execution spends the start it comes from. -/
theorem Causes.entered_once {n' : Nat} (h : ρ.Causes k i n) (h' : ρ.Causes k i n') :
    n' ≤ n := by
  obtain ⟨hkn, -, ⟨snapshot, henters⟩, -⟩ := h
  obtain ⟨-, -, ⟨snapshot', henters'⟩, hrun'⟩ := h'
  refine Nat.le_of_not_lt fun hlt => henters'.not_spent ?_
  refine spent_of_le hlt (fun t hnt htn => ?_) ?_
  · exact not_starts_of_running (hrun' t (by omega) (by omega))
  · intro s p hhas hwait
    have := henters.2.symm.trans hhas.2
    simp [hwait] at this

/-- After a request to stop that comes before its thread has woken up, a worker does not pass
the gate before the next start. -/
theorem not_enters_of_asksToStop (hkm : k < m) (hasks : ρ.AsksToStop m i)
    (hnone : ∀ t snapshot, k < t → t < m → ¬ρ.Enters t i snapshot) (hkn : k < n)
    (hstart : ∀ t, k < t → t < n → ¬ρ.Starts t) : ¬ρ.Enters n i snapshot := by
  intro henters
  obtain ⟨op, event, hop⟩ := hasks
  rcases Nat.lt_trichotomy n m with hlt | rfl | hlt
  · exact hnone n snapshot hkn hlt henters
  · obtain ⟨s, -, -, -, hquiet⟩ := henters.running
    exact nomatch event.symm.trans hquiet
  · refine henters.not_spent (spent_of_le hlt (fun t hmt htn => ?_) ?_)
    · exact hstart t (by omega) htn
    · intro s' p' h' hwait
      obtain ⟨s, p, h⟩ := h'.pred
      cases h.effect h' with
      | operate event' change =>
        obtain rfl := Option.some.inj (event.symm.trans event')
        exact change.of_asksToStop (Event.client_or_shutdown event) hop
      | rest quiet => exact nomatch event.symm.trans quiet
      | _ event' => simp [op?, event', Event.operation?] at event

/-- No thread is in its run loop right after a start. -/
theorem outside_of_starts (hstart : ρ.Starts k) :
    ∀ s p, ρ.Has (k + 1) i s p → p.inside = false := by
  intro s' p' h'
  obtain ⟨s, p, h⟩ := h'.pred
  obtain ⟨-, rfl⟩ := launch_of_starts hstart h h'
  have hidle := (starts_iff.1 hstart).2 i s h.1
  cases ρ.coupled i k s _ h with
  | executing hexec => exact absurd hidle hexec.state_ne_idle
  | resting hrest => rcases hrest.place with rfl | ⟨rfl, -⟩ <;> rfl
  | gone hgone =>
    obtain rfl := hgone.place
    rfl

/-- A request to stop that comes before the thread of a worker has woken up cancels the
start : until the next one the thread does not pass the gate and makes no call. -/
theorem LastStart.cancelled (h : ρ.LastStart k n) (hkm : k < m) (hasks : ρ.AsksToStop m i)
    (hnone : ∀ t snapshot, k < t → t < m → ¬ρ.Enters t i snapshot) :
    (∀ snapshot, ¬ρ.Enters n i snapshot) ∧
      ∀ p, ρ.phase? n i = some p → p.inside = false := by
  have hclosed : ∀ t snapshot, k < t → t ≤ n → ¬ρ.Enters t i snapshot := fun t snapshot hkt htn =>
    not_enters_of_asksToStop hkm hasks hnone hkt fun u hku hut =>
      h.2.2 u hku (Nat.lt_of_lt_of_le hut htn)
  refine ⟨fun snapshot => hclosed n snapshot h.1 (Nat.le_refl n), fun p hp => ?_⟩
  obtain ⟨s, hhas⟩ := has_of_phase? hp
  refine outside_of_le h.1 (fun t snapshot hkt htn => ?_) (outside_of_starts h.2.1) s p hhas
  exact hclosed t snapshot hkt (Nat.le_of_lt htn)

/-! ## Starts and executions match -/

/-- Every execution of a worker comes from one start, the last one before it, and runs what
the worker held at this start. Between two starts there is at most one execution, and none
if the worker is asked to stop before its thread has woken up. -/
theorem executions_match_starts (ρ : Run) (i : Nat) :
    (∀ n snapshot, ρ.Enters n i snapshot → ∃! k, ρ.Causes k i n) ∧
    (∀ k n n' a a', ρ.Enters n i a → ρ.Enters n' i a' → ρ.LastStart k n → ρ.LastStart k n' →
      n = n') ∧
    (∀ k n snapshot, ρ.Causes k i n → ρ.Enters n i snapshot →
      ρ.LastStart k n ∧ (ρ.fleet k).registry.held i = snapshot) ∧
    (∀ n loop point, ρ.phase? n i = some (.looping loop point) →
      ∃ m, ρ.Executes i m n loop.assignment?) ∧
    ∀ k m, k < m → ρ.AsksToStop m i →
      (∀ t snapshot, k < t → t < m → ¬ρ.Enters t i snapshot) → ∀ n, ρ.LastStart k n →
      (∀ snapshot, ¬ρ.Enters n i snapshot) ∧ ∀ p, ρ.phase? n i = some p → p.inside = false := by
  have honly {k k' n : Nat} (h : ρ.Causes k i n) (h' : ρ.LastStart k' n) : k = k' :=
    h.lastStart.unique h'
  refine ⟨?_, ?_, ?_, fun n loop point => executes_of_looping, ?_⟩
  · intro n snapshot henters
    obtain ⟨k, hcauses, -⟩ := henters.exists_causes
    exact ⟨k, hcauses, fun k' h' => honly h' hcauses.lastStart⟩
  · intro k n n' a a' henters henters' hlast hlast'
    obtain ⟨j, hcauses, -⟩ := henters.exists_causes
    obtain ⟨j', hcauses', -⟩ := henters'.exists_causes
    obtain rfl := honly hcauses hlast
    obtain rfl := honly hcauses' hlast'
    exact Nat.le_antisymm (hcauses'.entered_once hcauses) (hcauses.entered_once hcauses')
  · intro k n snapshot hcauses henters
    obtain ⟨k', hcauses', hheld⟩ := henters.exists_causes
    obtain rfl := honly hcauses hcauses'.lastStart
    exact ⟨hcauses.lastStart, hheld⟩
  · intro k m hkm hasks hnone n hlast
    exact hlast.cancelled hkm hasks hnone

/-- In `handover` the first start causes an execution of each worker, and the second one,
which is stopped at once, none. -/
theorem executions_match_starts_handover :
    (∃! k, handover.Causes k 0 3) ∧ handover.Causes 2 0 3 ∧
    handover.Enters 3 0 (some (.block rx)) ∧
    (handover.fleet 2).registry.held 0 = some (.block rx) ∧
    (∃ m, handover.Executes 0 m 13 (Loop.block rx).assignment?) ∧
    handover.LastStart 16 19 ∧ handover.AsksToStop 17 1 ∧
    (∀ snapshot, ¬handover.Enters 19 1 snapshot) ∧
    ∀ p, handover.phase? 19 1 = some p → p.inside = false := by
  have henters : handover.Enters 3 0 (some (.block rx)) := ⟨rfl, rfl⟩
  have hcauses : handover.Causes 2 0 3 := by
    refine ⟨by decide, by decide, ⟨_, henters⟩, fun t h2 h3 => ?_⟩
    obtain rfl : t = 3 := by omega
    exact ⟨_, rfl, rfl⟩
  have hlast : handover.LastStart 16 19 := by
    refine ⟨by decide, by decide, fun t h16 h19 => ?_⟩
    obtain rfl | rfl : t = 17 ∨ t = 18 := by omega
    all_goals decide
  have hasks : handover.AsksToStop 17 1 := ⟨.stop, rfl, rfl⟩
  obtain ⟨hone, -, hheld, hloop, -⟩ := executions_match_starts handover 0
  obtain ⟨-, -, -, -, hcancel⟩ := executions_match_starts handover 1
  refine ⟨hone 3 _ henters, hcauses, henters, (hheld 2 3 _ hcauses henters).2,
    hloop 13 _ .call rfl, hlast, hasks, ?_⟩
  exact hcancel 16 17 (by decide) hasks (fun t _ h16 h17 => by omega) 19 hlast

end Run

end CoreFleet
