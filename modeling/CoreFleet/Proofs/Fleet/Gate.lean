import CoreFleet.Proofs.Fleet.Execution
import CoreFleet.Proofs.Registry.Gate

/-!
# The start gate

The gate lets every worker pass or none. Whether it opens depends on the states of the workers
alone, and a worker that keeps it shut is named in the refusal.

A fleet that has been started is not started again before each of its workers has been through a
`Round` : it was running, then stopping or failed, and is idle again. What a worker may do in one
event (`state_cases`) leaves no other way from running to idle, and none back to running that does
not lead through idle, where the worker waits for the gate. `exists_round` follows a worker from one
start to the next, and `starts_all_or_nothing` puts this together.
-/

namespace CoreFleet.Run

variable {ρ : Run} {i k n u v : Nat} {s s' : Slot} {p p' : Phase}

/-- The state of the worker at `i` after `n` events. -/
def state? (ρ : Run) (n i : Nat) : Option State := (ρ.slot? n i).map (·.state)

/-- From the start at event `k` the worker at `i` is running for `u` events in all. Then it is
stopping or failed, until it is idle again after `v` events. -/
structure Round (ρ : Run) (i k u v : Nat) : Prop where
  started : k < u
  left : u + 1 < v
  running : ∀ t, k < t → t ≤ u → ρ.state? t i = some .running
  away : ∀ t, u < t → t < v → ρ.state? t i = some .stopping ∨ ρ.state? t i = some .error
  back : ρ.state? v i = some .idle

theorem Has.state?_eq (h : ρ.Has n i s p) : ρ.state? n i = some s.state := by
  rw [state?, h.1, Option.map_some]

/-! ## From one state to the next -/

/-- What one event makes of the state of a worker. -/
theorem Has.state_cases (h : ρ.Has n i s p) (h' : ρ.Has (n + 1) i s' p') :
    s'.state = s.state ∨ s.state = .idle ∧ s'.state = .running ∨
      s.state = .running ∧ s'.state = .stopping ∨ s'.state = .error ∨
      s.state ≠ .running ∧ s'.state = .idle := by
  cases h.effect h' with
  | operate event change =>
    rcases change.state_cases (Event.client_or_shutdown event) with ⟨hsame, -⟩ |
      ⟨-, -, hidle, hrun⟩ | ⟨-, hrun, hstop⟩ | ⟨hfail, hidle, -⟩
    · exact Or.inl hsame
    · exact Or.inr (Or.inl ⟨hidle, hrun⟩)
    · exact Or.inr (Or.inr (Or.inl ⟨hrun, hstop⟩))
    · refine Or.inr (Or.inr (Or.inr (Or.inr ⟨fun hrun => ?_, hidle⟩)))
      simp [Slot.recoverable, hrun] at hfail
  | settle _ stopping =>
    exact Or.inr (Or.inr (Or.inr (Or.inr ⟨by simp [stopping], rfl⟩)))
  | exit => exact Or.inr (Or.inr (Or.inr (Or.inl rfl)))
  | @report failure =>
    -- a loop ends well only in a worker that was asked to stop
    obtain ⟨m, snapshot, -, hexec⟩ := executing_of_inside h rfl
    rcases Registry.finish_state s failure with hidle | herror
    · refine Or.inr (Or.inr (Or.inr (Or.inr ⟨fun hrun => ?_, hidle⟩)))
      cases failure with
      | none => simp [hexec.asked rfl] at hrun
      | some reason => simp [Slot.finish, hrun] at hidle
    · exact Or.inr (Or.inr (Or.inr (Or.inl herror)))
  | rest | close | pass | enter | poll | called | timed => exact Or.inl rfl

/-- A running worker does not become idle at once. -/
theorem Has.of_running (h : ρ.Has n i s p) (h' : ρ.Has (n + 1) i s' p')
    (hrun : s.state = .running) :
    s'.state = .running ∨ s'.state = .stopping ∨ s'.state = .error := by
  rcases h.state_cases h' with hs | ⟨hs, -⟩ | ⟨-, hs⟩ | hs | ⟨hs, -⟩
  · exact Or.inl (hs.trans hrun)
  · simp [hrun] at hs
  · exact Or.inr (Or.inl hs)
  · exact Or.inr (Or.inr hs)
  · exact absurd hrun hs

/-- A worker that is stopping or failed does not run again before it is idle. -/
theorem Has.of_away (h : ρ.Has n i s p) (h' : ρ.Has (n + 1) i s' p')
    (haway : s.state = .stopping ∨ s.state = .error) :
    s'.state = .idle ∨ s'.state = .stopping ∨ s'.state = .error := by
  rcases h.state_cases h' with hs | ⟨hs, -⟩ | ⟨hs, -⟩ | hs | ⟨-, hs⟩
  · exact Or.inr (haway.imp hs.trans hs.trans)
  · simp [hs] at haway
  · simp [hs] at haway
  · exact Or.inr (Or.inr hs)
  · exact Or.inl hs

/-! ## From one start to the next -/

/-- How far the worker at `i` has come after `n` events, since the start at event `k`. -/
inductive Progress (ρ : Run) (i k n : Nat) : Prop
  | running (running : ∀ t, k < t → t ≤ n → ρ.state? t i = some .running)
  | away {u : Nat} (started : k < u) (left : u < n)
    (running : ∀ t, k < t → t ≤ u → ρ.state? t i = some .running)
    (away : ∀ t, u < t → t ≤ n → ρ.state? t i = some .stopping ∨ ρ.state? t i = some .error)
  | back {u v : Nat} (le : v ≤ n) (round : ρ.Round i k u v)

theorem Progress.succ (hkn : k < n) (h : ρ.Has n i s p) (h' : ρ.Has (n + 1) i s' p')
    (hprogress : ρ.Progress i k n) : ρ.Progress i k (n + 1) := by
  have extend {P : Nat → Prop} {a : Nat} (hle : ∀ t, a < t → t ≤ n → P t) (hlast : P (n + 1)) :
      ∀ t, a < t → t ≤ n + 1 → P t := by
    intro t hat htn
    rcases Nat.le_succ_iff.1 htn with hle' | rfl
    · exact hle t hat hle'
    · exact hlast
  cases hprogress with
  | running running =>
    have hrun : s.state = .running := by simpa [h.state?_eq] using running n hkn (Nat.le_refl n)
    rcases h.of_running h' hrun with hs | hs
    · exact .running (extend running (hs ▸ h'.state?_eq))
    · refine .away hkn (Nat.lt_succ_self n) running fun t hnt htn => ?_
      obtain rfl : t = n + 1 := by omega
      rw [h'.state?_eq]
      exact hs.imp (congrArg some) (congrArg some)
  | @away u started left running away =>
    have haway : s.state = .stopping ∨ s.state = .error := by
      simpa [h.state?_eq] using away n left (Nat.le_refl n)
    rcases h.of_away h' haway with hs | hs
    · refine .back (Nat.le_refl _)
        ⟨started, Nat.succ_lt_succ left, running, fun t hut htn => ?_, ?_⟩
      · exact away t hut (Nat.le_of_lt_succ htn)
      · rw [h'.state?_eq, hs]
    · refine .away started (Nat.lt_succ_of_lt left) running (extend away ?_)
      rw [h'.state?_eq]
      exact hs.imp (congrArg some) (congrArg some)
  | back le round => exact .back (Nat.le_succ_of_le le) round

/-- A worker that was started is running, has left running, or is back. -/
theorem progress_of_starts (hstart : ρ.Starts k) (hi : i < ρ.lcores.length) (hkn : k < n) :
    ρ.Progress i k n := by
  induction n, hkn using Nat.le_induction with
  | base =>
    obtain ⟨s, p, h⟩ := exists_has hi k
    obtain ⟨s', p', h'⟩ := h.succ
    obtain ⟨rfl, -⟩ := launch_of_starts hstart h h'
    refine .running fun t hkt htk => ?_
    obtain rfl : t = k + 1 := by omega
    exact h'.state?_eq
  | succ n hkn ih =>
    obtain ⟨s, p, h⟩ := exists_has hi n
    obtain ⟨s', p', h'⟩ := h.succ
    exact ih.succ hkn h h'

/-- Between two starts every worker goes through a round. -/
theorem exists_round (hstart : ρ.Starts k) (hnext : ρ.Starts n) (hkn : k < n)
    (hi : i < ρ.lcores.length) : ∃ u v, v ≤ n ∧ ρ.Round i k u v := by
  obtain ⟨s, p, h⟩ := exists_has hi n
  have hidle : ρ.state? n i = some .idle := by
    rw [h.state?_eq, (starts_iff.1 hnext).2 i s h.1]
  cases progress_of_starts hstart hi hkn with
  | running running => simp [running n hkn (Nat.le_refl n)] at hidle
  | away _ left _ away => rcases away n left (Nat.le_refl n) with hs | hs <;> simp [hs] at hidle
  | back le round => exact ⟨_, _, le, round⟩

/-- A start that is refused leaves the fleet as it is. -/
theorem fleet_succ_of_refused (event : ρ.op? n = some .start)
    (hrefused : (ρ.fleet n).registry.start.after = (ρ.fleet n).registry) :
    ρ.fleet (n + 1) = ρ.fleet n := by
  have hstep : ρ.fleet (n + 1) = (ρ.fleet n).operate .start := by
    rw [fleet]
    unfold op? at event
    cases hev : ρ.schedule n with
    | operate op client =>
      rw [hev] at event
      obtain rfl := Option.some.inj event
      rfl
    | shutdown | move | release => simp [hev, Event.operation?] at event
  rw [hstep, Fleet.operate, Operation.perform, Reply.map, hrefused]

/-! ## All or nothing -/

/-- A start succeeds if and only if every worker is idle. Then every worker is running with its flag
up, and nothing else has changed ; otherwise the first worker that is not idle is named, and nothing
has changed. A stop moves the running workers to stopping, lowers their flags, tells how many they
were, and changes nothing else. In every run, each worker has been through a round between two
starts that succeed, and a start is refused while one of them has not. -/
theorem starts_all_or_nothing :
    (∀ r : Registry,
      (r.start.answer = .ok () ↔ ∀ s ∈ r.slots, s.state = .idle) ∧
      ((∀ s ∈ r.slots, s.state = .idle) → r.start.after.down = r.down ∧ ∀ i : Nat,
        r.start.after.slots[i]? =
          r.slots[i]?.map fun s : Slot => { s with state := .running, flag := true }) ∧
      ((¬∀ s ∈ r.slots, s.state = .idle) → ∃ i s, r.FirstBusy i s ∧
        r.start.answer = .error (.notReady s.lcore.id s.state) ∧ r.start.after = r) ∧
      r.stop.answer =
        (Finset.univ.filter fun i : Fin r.slots.length =>
          (r.slots.get i).state = .running).card ∧
      r.stop.after.down = r.down ∧
      ∀ i : Nat, r.stop.after.slots[i]? = r.slots[i]?.map fun s : Slot =>
        if s.state = .running then { s with state := .stopping, flag := false } else s) ∧
    ∀ (ρ : Run) k n i, ρ.Starts k → k < n → i < ρ.lcores.length →
      (ρ.Starts n → ∃ u v, v ≤ n ∧ ρ.Round i k u v) ∧
      (ρ.op? n = some .start → (¬∃ u v, v ≤ n ∧ ρ.Round i k u v) →
        (∃ j s, (ρ.fleet n).registry.FirstBusy j s ∧
          (ρ.fleet n).registry.start.answer = .error (.notReady s.lcore.id s.state)) ∧
        ρ.fleet (n + 1) = ρ.fleet n) := by
  refine ⟨fun r => ⟨Registry.start_answer_eq_ok_iff, fun hidle => ⟨?_, ?_⟩, fun hbusy => ?_,
    r.stop_answer, rfl, r.getElem?_stop⟩, fun ρ k n i hstart hkn hi => ⟨?_, ?_⟩⟩
  · rcases r.start_cases with ⟨busy, hmem, hbusy, -⟩ | ⟨-, hstart⟩
    · exact absurd (hidle busy hmem) hbusy
    · rw [hstart]
  · exact Registry.getElem?_start hidle
  · obtain ⟨i, s, hfirst⟩ := Registry.exists_firstBusy hbusy
    rw [Registry.start_of_firstBusy hfirst]
    exact ⟨i, s, hfirst, rfl, rfl⟩
  · exact fun hnext => exists_round hstart hnext hkn hi
  · intro event hnone
    have hbusy : ¬∀ s ∈ (ρ.fleet n).registry.slots, s.state = .idle := fun hidle =>
      hnone (exists_round hstart ⟨event, Registry.start_answer_eq_ok_iff.2 hidle⟩ hkn hi)
    obtain ⟨j, s, hfirst⟩ := Registry.exists_firstBusy hbusy
    have hrefused := Registry.start_of_firstBusy hfirst
    refine ⟨⟨j, s, hfirst, by rw [hrefused]; rfl⟩, fleet_succ_of_refused event ?_⟩
    rw [hrefused]
    rfl

/-- Two workers of which one has a block are started and stopped. The thread of the first one
notices, while the fleet is started too early, and that of the second one before it is started
again. -/
def restarted : Run := .ofEvents [.worker 1, .worker 2] [
  .operate (.assignBlock 1 rx) (.refl true), .operate .start (.refl true),
  .operate .stop (.refl true), .move 0 .look, .operate .start (.refl true), .move 1 .look,
  .operate .start (.refl true)]

/-- In `restarted` the early start is refused, since the second worker is still stopping. Before the
late one both have been through a round, and it launches both of them. -/
theorem starts_all_or_nothing_restarted :
    restarted.Starts 1 ∧ restarted.Starts 6 ∧ (∃ u v, v ≤ 6 ∧ restarted.Round 1 1 u v) ∧
    restarted.op? 4 = some .start ∧ (¬∃ u v, v ≤ 4 ∧ restarted.Round 1 1 u v) ∧
    (∃ j s, (restarted.fleet 4).registry.FirstBusy j s ∧
      (restarted.fleet 4).registry.start.answer = .error (.notReady s.lcore.id s.state)) ∧
    restarted.fleet 5 = restarted.fleet 4 ∧
    (∀ s ∈ (restarted.fleet 6).registry.slots, s.state = .idle) ∧
    (∀ i : Nat, (restarted.fleet 7).registry.slots[i]? =
      (restarted.fleet 6).registry.slots[i]?.map fun s : Slot =>
        { s with state := .running, flag := true }) ∧
    (¬∀ s ∈ (restarted.fleet 4).registry.slots, s.state = .idle) ∧
    (restarted.fleet 4).registry.start.after = (restarted.fleet 4).registry := by
  have hstart : restarted.Starts 1 := by decide
  have hagain : restarted.Starts 6 := by decide
  have hnone : ¬∃ u v, v ≤ 4 ∧ restarted.Round 1 1 u v := by
    rintro ⟨u, v, hv, hround⟩
    have hu := hround.started
    have huv := hround.left
    obtain rfl : v = 4 := by omega
    exact nomatch hround.back
  have hidle : ∀ s ∈ (restarted.fleet 6).registry.slots, s.state = .idle := by decide
  have hbusy : ¬∀ s ∈ (restarted.fleet 4).registry.slots, s.state = .idle := by decide
  obtain ⟨hgate, hruns⟩ := starts_all_or_nothing
  obtain ⟨hrefused, hsame⟩ :=
    (hruns restarted 1 4 1 hstart (by decide) (by decide)).2 rfl hnone
  obtain ⟨-, -, -, -, hregistry⟩ := (hgate (restarted.fleet 4).registry).2.2.1 hbusy
  have hround := (hruns restarted 1 6 1 hstart (by decide) (by decide)).1 hagain
  exact ⟨hstart, hagain, hround, rfl, hnone, hrefused, hsame, hidle,
    ((hgate (restarted.fleet 6).registry).2.1 hidle).2, hbusy, hregistry⟩

end CoreFleet.Run
