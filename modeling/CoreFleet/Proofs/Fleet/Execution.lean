import CoreFleet.Proofs.Fleet.Coupling

/-!
# Executions

An execution is what a worker's thread does from the start gate, which it passes with a
snapshot of its assignment, to its report. While it lasts the worker is coupled to this
snapshot, which is what it held at the last start (`Executes.executing`), and every run
loop in progress belongs to an execution of what the loop runs (`executes_of_looping`).

A unit is freed at once when it is cleared, and may then be given to another worker while
the loop of the first one still runs it. Even so no unit is executed by two workers
(`executions_exclusive`) : they would both have been launched by the last start, when no
two workers held it, for nobody is started while somebody executes.

`flag_agrees` is what a client may rely on : the flag, the state and the assignment of a
worker agree with each other and with its thread, and the flag of an execution that was
asked to stop stays down until the execution has been reported.
-/

namespace CoreFleet

/-- The thread is between the gate and its report. -/
def Phase.inside : Phase → Bool
  | entering _ => true
  | looping .. => true
  | finishing _ => true
  | _ => false

theorem Phase.Runs.inside {snapshot : Option Assignment} {p : Phase} (h : p.Runs snapshot) :
    p.inside = true := by
  cases h <;> rfl

namespace Run

variable {ρ : Run} {n m i : Nat} {s s' : Slot} {p p' : Phase} {snapshot : Option Assignment}

/-! ## Executions and the last start -/

/-- An execution that is not reported goes on. -/
theorem Executes.succ (h : ρ.Executes i m n snapshot) (hp : ρ.phase? (n + 1) i ≠ some .waiting) :
    ρ.Executes i m (n + 1) snapshot := by
  obtain ⟨hlt, henters, hnone⟩ := h
  refine ⟨by omega, henters, fun t failure hmt htn hreport => ?_⟩
  rcases Nat.lt_succ_iff_lt_or_eq.1 htn with hlt | rfl
  · exact hnone t failure hmt hlt hreport
  · exact hp hreport.2

theorem Executes.pred (h : ρ.Executes i m (n + 1) snapshot) (hmn : m < n) :
    ρ.Executes i m n snapshot :=
  ⟨hmn, h.2.1, fun t failure hmt htn => h.2.2 t failure hmt (by omega)⟩

/-- A thread that has not waited since it passed the gate executes its snapshot. -/
theorem executes_of_phases (hmn : m < n) (henters : ρ.Enters m i snapshot)
    (hphases : ∀ t, t < n → m < t → ρ.phase? (t + 1) i ≠ some .waiting) :
    ρ.Executes i m n snapshot :=
  ⟨hmn, henters, fun t _ hmt htn hreport => hphases t htn hmt hreport.2⟩

/-- A worker that executes a snapshot is coupled to it, and was last started with it. -/
theorem Executes.executing : ∀ {n : Nat}, ρ.Executes i m n snapshot →
    ∃ s p, ρ.Has n i s p ∧ Executing snapshot s p ∧ ρ.launched i n = snapshot
  | 0, h => absurd h.1 (Nat.not_lt_zero m)
  | n + 1, h => by
    rcases Nat.lt_succ_iff_lt_or_eq.1 h.1 with hmn | rfl
    · obtain ⟨s, p, hhas, hexec, hlaunched⟩ := (h.pred hmn).executing
      obtain ⟨s', p', hhas'⟩ := hhas.succ
      have hstart : ¬ρ.Starts n := fun hstart =>
        hexec.state_ne_idle ((starts_iff.1 hstart).2 i s hhas.1)
      refine ⟨s', p', hhas', ?_, by rw [launched, if_neg hstart, hlaunched]⟩
      rcases hexec.effect (hhas.effect hhas') with hexec' | ⟨failure, rfl, rfl, -⟩
      · exact hexec'
      · exact absurd ⟨hhas.2, hhas'.2⟩ (h.2.2 n failure hmn (Nat.lt_succ_self n))
    · obtain ⟨s', hhas'⟩ := has_of_phase? h.2.1.2
      cases ρ.coupled i (m + 1) s' _ hhas' with
      | executing hexec =>
        have hsnapshot : snapshot = ρ.launched i (m + 1) := by
          cases hexec.runs with | entering => rfl
        exact ⟨s', _, hhas', hsnapshot ▸ hexec, hsnapshot.symm⟩
      | resting hrest => rcases hrest.place with hp | ⟨hp, -⟩ <;> cases hp
      | gone hgone => cases hgone.place

/-- A thread between the gate and its report executes a snapshot. -/
theorem exists_executes (ρ : Run) (i : Nat) : ∀ n s p, ρ.Has n i s p → p.inside = true →
    ∃ m snapshot, ρ.Executes i m n snapshot := by
  refine worker_induction nofun ?_
  intro n s p s' p' h h' he ih hinside
  have hwait : p' ≠ .waiting := by
    rintro rfl
    cases hinside
  have hgoes (hp : p.inside = true) : ∃ m snapshot, ρ.Executes i m (n + 1) snapshot := by
    obtain ⟨m, snapshot, hexec⟩ := ih hp
    exact ⟨m, snapshot, hexec.succ (by simpa [h'.2] using hwait)⟩
  cases he with
  | rest | operate => exact hgoes hinside
  | pass =>
    exact ⟨n, _, Nat.lt_succ_self n, ⟨h.2, h'.2⟩, fun t _ hnt htn => by omega⟩
  | enter | poll | called | timed => exact hgoes rfl
  | report | settle => exact absurd rfl hwait
  | close | exit => cases hinside

/-- A worker whose thread is between the gate and its report is coupled to what it
executes. -/
theorem executing_of_inside (h : ρ.Has n i s p) (hp : p.inside = true) :
    ∃ m snapshot, ρ.Executes i m n snapshot ∧ Executing snapshot s p := by
  obtain ⟨m, snapshot, hexec⟩ := exists_executes ρ i n s p h hp
  obtain ⟨s', p', h', hcoupled, -⟩ := hexec.executing
  obtain ⟨rfl, rfl⟩ := h.unique h'
  exact ⟨m, snapshot, hexec, hcoupled⟩

/-- A run loop in progress belongs to an execution of what the loop runs. -/
theorem executes_of_looping {loop : Loop} {point : Point}
    (hp : ρ.phase? n i = some (.looping loop point)) :
    ∃ m, ρ.Executes i m n loop.assignment? := by
  obtain ⟨s, h⟩ := has_of_phase? hp
  obtain ⟨m, snapshot, hexec, hcoupled⟩ := executing_of_inside h rfl
  cases hcoupled.runs with
  | looping same => exact ⟨m, same ▸ hexec⟩

/-! ## No unit is executed twice at a time -/

theorem exclusive_fleet (ρ : Run) : ∀ n, (ρ.fleet n).registry.Exclusive
  | 0 => Registry.exclusive_ofLcores ρ.lcores
  | n + 1 => Fleet.exclusive_step (exclusive_fleet ρ n) (ρ.schedule n)

/-- No unit was launched on two workers by the last start. -/
theorem unshared_launched (ρ : Run) : ∀ n, Unshared fun i => ρ.launched i n
  | 0 => unshared_none
  | n + 1 => by
    by_cases hstart : ρ.Starts n
    · simp only [launched, if_pos hstart]
      exact ρ.exclusive_fleet n
    · simpa only [launched, if_neg hstart] using unshared_launched ρ n

/-- After any number of events no two workers execute one unit, and every run loop in
progress is such an execution. -/
theorem executions_exclusive (ρ : Run) (n : Nat) :
    (∀ i j m m' a b, i ≠ j → ρ.Executes i m n (some a) → ρ.Executes j m' n (some b) →
      a.key ≠ b.key) ∧
    ∀ i loop point, ρ.phase? n i = some (.looping loop point) →
      ∃ m, ρ.Executes i m n loop.assignment? := by
  refine ⟨fun i j m m' a b hij hi hj hkey => ?_, fun i loop point => executes_of_looping⟩
  obtain ⟨-, -, -, -, hlaunched⟩ := hi.executing
  obtain ⟨-, -, -, -, hlaunched'⟩ := hj.executing
  exact hij (ρ.unshared_launched n i j a b hlaunched hlaunched' hkey)

/-- Both workers of `handover` execute their blocks when these have been cleared, and the
first one still does when the second one holds its block. -/
theorem executions_exclusive_handover :
    handover.Executes 0 3 10 (some (.block rx)) ∧ handover.Executes 1 4 10 (some (.block tx)) ∧
    (Assignment.block rx).key ≠ (Assignment.block tx).key ∧
    (handover.fleet 13).registry.held 1 = some (.block rx) ∧
    handover.phase? 13 0 = some (.looping (.block rx) .call) ∧
    ∃ m, handover.Executes 0 m 13 (Loop.block rx).assignment? := by
  have hrx : handover.Executes 0 3 10 (some (.block rx)) :=
    executes_of_phases (by decide) ⟨rfl, rfl⟩ (by decide)
  have htx : handover.Executes 1 4 10 (some (.block tx)) :=
    executes_of_phases (by decide) ⟨rfl, rfl⟩ (by decide)
  have hphase : handover.phase? 13 0 = some (.looping (.block rx) .call) := rfl
  have hkeys := (executions_exclusive handover 10).1 0 1 3 4 _ _ (by decide) hrx htx
  have hloop := (executions_exclusive handover 13).2 0 _ _ hphase
  exact ⟨hrx, htx, hkeys, rfl, hphase, hloop⟩

/-! ## What a client may rely on -/

/-- An execution that was asked to stop is not started again. -/
theorem stopping_of_executes {t : Nat} (h : ρ.Executes i m n snapshot)
    (hs : ρ.slot? n i = some s) (hstop : s.state = .stopping) (hnt : n ≤ t)
    (h' : ρ.Executes i m t snapshot) (hs' : ρ.slot? t i = some s') : s'.state = .stopping := by
  induction hnt generalizing s' with
  | refl =>
    obtain rfl : s = s' := Option.some.inj (hs.symm.trans hs')
    exact hstop
  | @step t hnt ih =>
    have hprev := h'.pred (Nat.lt_of_lt_of_le h.1 hnt)
    obtain ⟨q, p, hhas, hexec, -⟩ := hprev.executing
    have hq := ih hprev hhas.1
    obtain ⟨p', hhas'⟩ := has_of_slot? hs'
    have he := hhas.effect hhas'
    cases he with
    | operate event change =>
      exact change.state_of_stopping (Event.client_or_shutdown event) hq
    | report => exact absurd ⟨hhas.2, hhas'.2⟩ (h'.2.2 t _ hprev.1 (Nat.lt_succ_self t))
    | close | pass | settle | exit => cases hexec.runs
    | _ => exact hq

/-- The run flag, the state and the assignment of a worker agree. The flag of a worker that
is not retired is up exactly when it is running. A worker that executes a snapshot is
running with it, or was asked to stop and holds it or nothing. Once it was asked to stop,
nothing lifts the flag before the execution is reported. -/
theorem flag_agrees (ρ : Run) {n i : Nat} {s : Slot} (hs : ρ.slot? n i = some s) :
    (s.retired = false → (s.flag = true ↔ s.state = .running)) ∧
    (∀ m snapshot, ρ.Executes i m n snapshot →
      s.state = .running ∧ s.assignment = snapshot ∨
      s.state = .stopping ∧ (s.assignment = snapshot ∨ s.assignment = none)) ∧
    ∀ m snapshot t s', ρ.Executes i m n snapshot → s.state = .stopping → n ≤ t →
      ρ.Executes i m t snapshot → ρ.slot? t i = some s' →
      s'.state = .stopping ∧ s'.flag = false := by
  refine ⟨fun hpresent => ?_, fun m snapshot h => ?_, fun m snapshot t s' h hstop hnt h' hs' => ?_⟩
  · obtain ⟨p, hhas⟩ := has_of_slot? hs
    cases ρ.coupled i n s p hhas with
    | executing h => simp [h.flag]
    | resting h => simp [h.flag]
    | gone h => simp [h.retired] at hpresent
  · obtain ⟨s', p, hhas, hexec, -⟩ := h.executing
    obtain rfl : s = s' := Option.some.inj (hs.symm.trans hhas.1)
    rcases hexec.active with hrun | hstop
    · exact Or.inl ⟨hrun, hexec.unit.resolve_right (by simp [hrun])⟩
    · exact Or.inr ⟨hstop, hexec.unit.imp_right And.right⟩
  · have hstop' := stopping_of_executes h hs hstop hnt h' hs'
    obtain ⟨s'', p, hhas, hexec, -⟩ := h'.executing
    obtain rfl : s' = s'' := Option.some.inj (hs'.symm.trans hhas.1)
    exact ⟨hstop', by simp [hexec.flag, hstop']⟩

/-- The first worker of `handover` is asked to stop while its loop runs, and no flag is up
when it reports. -/
theorem flag_agrees_handover : ∃ s s' : Slot,
    handover.slot? 9 0 = some s ∧ (s.flag = true ↔ s.state = .running) ∧ s.state = .stopping ∧
    handover.Executes 0 3 9 (some (.block rx)) ∧
    (s.assignment = some (.block rx) ∨ s.assignment = none) ∧
    handover.Executes 0 3 15 (some (.block rx)) ∧
    handover.slot? 15 0 = some s' ∧ s'.state = .stopping ∧ s'.flag = false := by
  have hexec : handover.Executes 0 3 9 (some (.block rx)) :=
    executes_of_phases (by decide) ⟨rfl, rfl⟩ (by decide)
  have hexec' : handover.Executes 0 3 15 (some (.block rx)) :=
    executes_of_phases (by decide) ⟨rfl, rfl⟩ (by decide)
  obtain ⟨s, hs, hpresent, hstop⟩ : ∃ s, handover.slot? 9 0 = some s ∧ s.retired = false ∧
    s.state = .stopping := ⟨_, rfl, rfl, rfl⟩
  obtain ⟨s', hs'⟩ : ∃ s', handover.slot? 15 0 = some s' := ⟨_, rfl⟩
  obtain ⟨hflag, hunit, hlater⟩ := flag_agrees handover hs
  refine ⟨s, s', hs, hflag hpresent, hstop, hexec, ?_, hexec', hs', ?_⟩
  · exact ((hunit 3 _ hexec).resolve_left (by simp [hstop])).2
  · exact hlater 3 _ 15 s' hexec hstop (by decide) hexec' hs'

end Run

end CoreFleet
