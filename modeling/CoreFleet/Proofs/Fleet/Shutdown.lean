import CoreFleet.Proofs.Fleet.Start

/-!
# After the shutdown

The shutdown asks every running worker to stop, and no thread passes the start gate any
more. So the flag of every run loop in progress stays down (`stopping_of_down`), and each
step of a thread brings it closer to its exit : `Phase.remaining` counts the steps that it
makes at most (`remaining_succ`). `shutdown_ends_workers` puts this together with what
becomes of a worker whose thread has exited, which is `Lost`.

The mark of the shutdown keeps the gate shut for the threads but not for a start, which looks
at the states alone. `starts_after_shutdown` tells what a start may still do : it is let
through only while every thread is on its way out, it makes no thread run anything, and none
is let through once a thread has exited.
-/

namespace CoreFleet

/-- How many steps a thread that stands here makes at most until it has exited, once the
fleet is shut down. -/
def Phase.remaining : Phase → Nat
  | exited => 0
  | leaving => 1
  | waiting => 2
  | finishing _ => 3
  | looping _ .check => 4
  | looping _ (.timer _) => 5
  | entering _ => 5
  | looping _ .call => 6

theorem Phase.exited_of_remaining {p : Phase} (h : p.remaining = 0) : p = .exited := by
  unfold remaining at h
  split at h <;> first | rfl | cases h

theorem Phase.remaining_le (p : Phase) : p.remaining ≤ 6 := by
  unfold remaining
  split <;> omega

section Loop

variable {loop : Loop}

theorem Loop.remaining_enter (tuning : Tuning) (alive : UnitId → Bool) (now : Nat)
    (snapshot : Option Assignment) : (Loop.enter tuning alive now snapshot).remaining ≤ 4 := by
  unfold Loop.enter
  repeat' split
  all_goals simp [Phase.remaining]

/-- A loop whose flag is down ends. -/
theorem Loop.remaining_poll (loop : Loop) : (loop.poll false).remaining = 3 := rfl

theorem Loop.remaining_afterCall (loop : Loop) (outcome : Outcome) (now : Nat) :
    (loop.afterCall outcome now).remaining ≤ 5 := by
  unfold Loop.afterCall
  cases loop with
  | idle => simp [Phase.remaining]
  | block b => cases outcome.failure <;> simp [Phase.remaining]
  | pipeline ref gate =>
    cases outcome.failure with
    | none => by_cases hdue : (gate.tick.looks && gate.tick.isDue now) = true <;>
        simp [Phase.remaining, hdue]
    | some reason => simp [Phase.remaining]

theorem Loop.remaining_afterTimer (loop : Loop) (outcome : Outcome) (reading : Nat) :
    (loop.afterTimer outcome reading).remaining ≤ 4 := by
  unfold Loop.afterTimer
  cases outcome.failure <;> cases loop <;> simp [Phase.remaining]

end Loop

/-! ## Lost workers -/

/-- The worker is gone for good, and reports so. -/
structure Slot.Lost (s : Slot) : Prop where
  state : s.state = .error
  retired : s.retired = true
  error : s.error = some exitedText

theorem Slot.lost_retire (s : Slot) : s.retire.Lost := ⟨rfl, rfl, rfl⟩

namespace Registry

/-- The worker at `i` is gone for good. It is given nothing and is not reset, and the fleet is
not started. -/
structure Lost (r : Registry) (i : Nat) : Prop where
  slot : ∃ s, r.slots[i]? = some s ∧ s.Lost
  assign : ∀ (op : Operation) (id : Nat) (a : Assignment), op.gives = some (id, a) →
    r.index? id = some i → (op.perform r).answer = .error (.invalidState id .error)
  reset : ∀ id, r.index? id = some i →
    ((Operation.reset id).perform r).answer = .error (.invalidState id .error)
  start : ∃ id state, (Operation.start.perform r).answer = .error (.notReady id state)

variable {r : Registry} {i id : Nat} {s : Slot}

/-- The worker that an identifier names. -/
theorem slot?_of_index? (hid : r.index? id = some i) (hs : r.slots[i]? = some s) :
    r.slot? id = some s ∧ s.lcore.id = id := by
  rcases r.lookup_cases id with ⟨hnone, -⟩ | ⟨k, t, hk, hget, ht⟩
  · simp [hnone] at hid
  · obtain rfl : k = i := Option.some.inj (hk.symm.trans hid)
    obtain rfl : t = s := Option.some.inj (hget.symm.trans hs)
    exact ⟨ht, by simpa using List.find?_some ht⟩

theorem lost_of_slot (hlost : s.Lost) (hs : r.slots[i]? = some s) : r.Lost i where
  slot := ⟨s, hs, hlost⟩
  assign op id a hop hid := by
    obtain ⟨hslot, rfl⟩ := slot?_of_index? hid hs
    have hassign : ∀ a held, r.assign s.lcore.id a held =
        r.refuse (.invalidState s.lcore.id .error) := by
      intro a held
      simp [Registry.assign, hid, hslot, Slot.assignable, hlost.state]
    cases op <;>
      simp only [Operation.gives, Option.some.injEq, Prod.mk.injEq, reduceCtorEq] at hop
    all_goals
      obtain ⟨rfl, -⟩ := hop
      simp only [Operation.perform, assignPipeline, assignBlock, hassign]
      rfl
  reset id hid := by
    obtain ⟨hslot, -⟩ := slot?_of_index? hid hs
    have hreset : r.reset id = r.refuse (.invalidState id .error) := by
      simp [Registry.reset, hid, hslot, Slot.recoverable, hlost.state, hlost.retired]
    rw [Operation.perform, hreset]
    rfl
  start := by
    rcases r.start_cases with ⟨busy, -, -, hstart⟩ | ⟨hidle, -⟩
    · refine ⟨busy.lcore.id, busy.state, ?_⟩
      rw [Operation.perform, hstart]
      rfl
    · have := hidle s (List.mem_of_getElem? hs)
      simp [hlost.state] at this

end Registry

/-! ## Steps of a thread after the shutdown -/

variable {f g : Fleet} {i : Nat} {s : Slot} {p : Phase} {m : Move}

/-- Each step of a thread brings it closer to its end, if the fleet is shut down and the flag
of its run loop is down. -/
theorem Fleet.remaining_move (hm : f.move i m = some g) (hs : f.registry.slots[i]? = some s)
    (hp : f.phases[i]? = some p) (hdown : f.registry.down = true)
    (hflag : p.inside = true → s.flag = false) :
    ∃ q, g.phases[i]? = some q ∧ q.remaining < p.remaining := by
  have hset : ∀ q, (f.phases.set i q)[i]? = some q := fun q =>
    List.getElem?_set_self (List.getElem?_eq_some_iff.1 hp).1
  unfold move at hm
  rw [hp] at hm
  split at hm <;> rename_i heq
  case h_8 => simp at hm
  all_goals
    obtain rfl := Option.some.inj hm
    obtain rfl := Option.some.inj heq
    refine ⟨_, hset _, ?_⟩
  case h_1 => simp [Registry.awaken, hdown, Registry.answer, afterLook, Phase.remaining]
  case h_2 => exact Nat.lt_succ_of_le (Loop.remaining_enter ..)
  case h_3 loop =>
    have hlow : f.flagAt i = false := by simpa [flagAt, hs] using hflag rfl
    rw [hlow, loop.remaining_poll]
    exact Nat.lt_succ_self 3
  case h_4 => exact Nat.lt_succ_of_le (Loop.remaining_afterCall ..)
  case h_5 => exact Nat.lt_succ_of_le (Loop.remaining_afterTimer ..)
  case h_6 | h_7 => exact Nat.lt_succ_self _

theorem Fleet.move_of_exited (hp : f.phases[i]? = some .exited) : f.move i m = none := by
  cases m <;> simp [move, hp]

/-- A thread that has not exited has a next step, however a call of it ends. -/
theorem Fleet.exists_turn (f : Fleet) (hp : f.phases[i]? = some p) (hgoes : p ≠ .exited)
    (outcome : Outcome) (now : Nat) : ∃ g, f.turn? i outcome now = some g := by
  unfold turn?
  rw [hp]
  cases p with
  | exited => exact absurd rfl hgoes
  | looping loop point => cases point <;> exact ⟨_, by simp [Phase.next?, move, hp]; rfl⟩
  | _ => exact ⟨_, by simp [Phase.next?, move, hp]; rfl⟩

namespace Run

variable {ρ : Run} {n k t a : Nat} {s' : Slot} {q : Phase} {snapshot : Option Assignment}

/-- The thread of the worker at `i` makes a step at event `n`. -/
def acts (ρ : Run) (i n : Nat) : Bool :=
  match ρ.schedule n with
  | .move k m => k = i && ((ρ.fleet n).move k m).isSome
  | _ => false

/-- How many steps the thread of the worker at `i` makes from event `a` on before event `n`. -/
def actions (ρ : Run) (i a n : Nat) : Nat := (List.range n).countP fun t => a ≤ t && ρ.acts i t

/-- The thread of the worker at `i` has exited. -/
def Retired (ρ : Run) (n i : Nat) : Prop := ∃ s, ρ.slot? n i = some s ∧ s.retired = true

theorem actions_self (ρ : Run) (i a : Nat) : ρ.actions i a a = 0 := by
  refine List.countP_eq_zero.2 fun t ht => ?_
  have := List.mem_range.1 ht
  simp [Nat.not_le.2 this]

theorem actions_succ (ρ : Run) (i : Nat) (h : a ≤ n) :
    ρ.actions i a (n + 1) = ρ.actions i a n + (ρ.acts i n).toNat := by
  unfold actions
  cases hacts : ρ.acts i n <;> simp [List.range_succ, List.countP_append, h, hacts]

theorem actions_mono (ρ : Run) (i : Nat) (han : a ≤ n) (hnt : n ≤ t) :
    ρ.actions i a n ≤ ρ.actions i a t := by
  induction hnt with
  | refl => exact Nat.le_refl _
  | @step t hnt ih =>
    rw [actions_succ ρ i (Nat.le_trans han hnt)]
    omega

/-- A thread that goes on makes as many steps as one likes. -/
theorem exists_le_actions (hgoes : ∀ a, ∃ t ≥ a, ρ.acts i t = true) (a : Nat) : ∀ c,
    ∃ n ≥ a, c ≤ ρ.actions i a n
  | 0 => ⟨a, Nat.le_refl a, Nat.zero_le _⟩
  | c + 1 => by
    obtain ⟨n, hn, hc⟩ := exists_le_actions hgoes a c
    obtain ⟨t, ht, hacts⟩ := hgoes n
    have hat : a ≤ t := Nat.le_trans hn ht
    have hmono := ρ.actions_mono i hn ht
    refine ⟨t + 1, Nat.le_succ_of_le hat, ?_⟩
    rw [actions_succ ρ i hat, hacts]
    exact Nat.succ_le_succ (Nat.le_trans hc hmono)

/-- A thread moves by its own steps alone. -/
theorem phase?_succ_of_not_acts (h : ρ.acts i n = false) :
    ρ.phase? (n + 1) i = ρ.phase? n i := by
  unfold acts at h
  unfold phase?
  rw [fleet]
  cases hev : ρ.schedule n with
  | operate | shutdown | release => rfl
  | move k m =>
    rw [hev] at h
    cases hm : (ρ.fleet n).move k m with
    | none => simp [Fleet.step, hm]
    | some g =>
      have hne : k ≠ i := by simpa [hm] using h
      simpa [Fleet.step, hm] using (Fleet.getElem?_move_ne hm hne).2

theorem exists_move_of_acts (h : ρ.acts i n = true) :
    ∃ m g, (ρ.fleet n).move i m = some g ∧ ρ.fleet (n + 1) = g := by
  unfold acts at h
  cases hev : ρ.schedule n with
  | operate | shutdown | release => simp [hev] at h
  | move k m =>
    simp only [hev, Bool.and_eq_true, decide_eq_true_eq] at h
    obtain ⟨rfl, hsome⟩ := h
    obtain ⟨g, hg⟩ := Option.isSome_iff_exists.1 hsome
    exact ⟨m, g, hg, by simp [fleet, hev, Fleet.step, hg]⟩

/-- No event takes a thread further away from its end, and each of its own steps brings it
closer, if the fleet is shut down and the flag of its run loop is down. -/
theorem remaining_succ (h : ρ.Has n i s p) (hdown : (ρ.fleet n).registry.down = true)
    (hflag : p.inside = true → s.flag = false) :
    ∃ q, ρ.phase? (n + 1) i = some q ∧ q.remaining + (ρ.acts i n).toNat ≤ p.remaining := by
  cases hacts : ρ.acts i n with
  | false => exact ⟨p, (phase?_succ_of_not_acts hacts).trans h.2, Nat.le_refl _⟩
  | true =>
    obtain ⟨m, g, hm, hg⟩ := exists_move_of_acts hacts
    obtain ⟨q, hq, hlt⟩ := Fleet.remaining_move hm h.1 h.2 hdown hflag
    exact ⟨q, by rw [phase?, hg, hq], hlt⟩

/-! ## No execution begins -/

theorem down_of_shutdown (hk : ρ.op? k = some .shutdown) (hkn : k < n) :
    (ρ.fleet n).registry.down = true :=
  down_iff.2 ⟨k, hkn, hk⟩

/-- Once the fleet is shut down, no thread passes the gate. -/
theorem not_enters_of_down (hdown : (ρ.fleet n).registry.down = true) :
    ¬ρ.Enters n i snapshot := by
  rintro ⟨hp, hp'⟩
  obtain ⟨s, h⟩ := has_of_phase? hp
  obtain ⟨q, hq, hle⟩ := remaining_succ h hdown nofun
  obtain rfl : .entering snapshot = q := Option.some.inj (hp'.symm.trans hq)
  simp only [Phase.remaining] at hle
  omega

/-- Once the fleet is shut down, every worker that still executes was asked to stop. -/
theorem stopping_of_down (ρ : Run) (i : Nat) : ∀ n s p, ρ.Has n i s p →
    (ρ.fleet n).registry.down = true → p.inside = true → s.state = .stopping := by
  refine worker_induction (fun l _ => nofun) ?_
  intro n s p s' p' h h' he ih hdown hinside
  have hbefore (hop : ρ.op? n ≠ some .shutdown) : (ρ.fleet n).registry.down = true := by
    obtain ⟨m, hm, hshut⟩ := down_iff.1 hdown
    rcases Nat.lt_succ_iff_lt_or_eq.1 hm with hlt | rfl
    · exact down_of_shutdown hshut hlt
    · exact absurd hshut hop
  have hquiet {m : Move} (event : ρ.schedule n = .move i m) : ρ.op? n ≠ some .shutdown := by
    simp [op?, event, Event.operation?]
  cases he with
  | rest quiet =>
    have hop : ρ.op? n ≠ some .shutdown := by simp [op?, quiet]
    exact ih (hbefore hop) hinside
  | @operate op _ _ event change =>
    by_cases hop : op = .shutdown
    · subst hop
      obtain ⟨_, _, -, hexec⟩ := executing_of_inside h' hinside
      exact hexec.active.resolve_left (change.of_asksToStop (Or.inr rfl) rfl)
    · have hstop := ih (hbefore (by simpa [op?, event] using hop)) hinside
      exact change.state_of_stopping (Event.client_or_shutdown event) hstop
  | pass event => exact absurd ⟨h.2, h'.2⟩ (not_enters_of_down (hbefore (hquiet event)))
  | enter event | poll event | called event | timed event => exact ih (hbefore (hquiet event)) rfl
  | close | settle | report | exit => cases hinside

/-- The flag of an execution is down once the fleet is shut down. -/
theorem flag_of_down (h : ρ.Has n i s p) (hdown : (ρ.fleet n).registry.down = true)
    (hp : p.inside = true) : s.flag = false := by
  obtain ⟨_, _, -, hexec⟩ := executing_of_inside h hp
  simp [hexec.flag, stopping_of_down ρ i n s p h hdown hp]

/-! ## Every thread exits -/

/-- Whatever a thread is away from its end after the shutdown, it makes at most so many steps. -/
theorem remaining_add_actions_le {p₀ : Phase}
    (hdown : ∀ t, a ≤ t → (ρ.fleet t).registry.down = true) (hp₀ : ρ.phase? a i = some p₀)
    (han : a ≤ n) (hp : ρ.phase? n i = some p) :
    p.remaining + ρ.actions i a n ≤ p₀.remaining := by
  induction han generalizing p with
  | refl =>
    obtain rfl : p₀ = p := Option.some.inj (hp₀.symm.trans hp)
    rw [actions_self]
    exact Nat.le_refl _
  | @step n han ih =>
    obtain ⟨s', h'⟩ := has_of_phase? hp
    obtain ⟨s, p', h⟩ := h'.pred
    obtain ⟨q, hq, hle⟩ := remaining_succ h (hdown n han) (flag_of_down h (hdown n han))
    obtain rfl : p = q := Option.some.inj (hp.symm.trans hq)
    have := ih h.2
    rw [actions_succ ρ i han]
    omega

/-- A thread makes at most six steps after the shutdown, one less for each that it is further
on. -/
theorem remaining_add_actions (hdown : ∀ t, a ≤ t → (ρ.fleet t).registry.down = true)
    (han : a ≤ n) (hp : ρ.phase? n i = some p) : p.remaining + ρ.actions i a n ≤ 6 := by
  have hi := (List.getElem?_eq_some_iff.1 hp).1
  obtain ⟨s, p₀, h⟩ := exists_has ((ρ.length_fleet n).2 ▸ hi) a
  exact Nat.le_trans (remaining_add_actions_le hdown h.2 han hp) p₀.remaining_le

theorem retired_iff : ρ.Retired n i ↔ ρ.phase? n i = some .exited := by
  constructor
  · rintro ⟨s, hs, hretired⟩
    obtain ⟨p, h⟩ := has_of_slot? hs
    cases ρ.coupled i n s p h with
    | executing hexec => simp [hexec.present] at hretired
    | resting hrest => simp [hrest.present] at hretired
    | gone hgone => exact hgone.place ▸ h.2
  · intro hp
    obtain ⟨s, h⟩ := has_of_phase? hp
    cases ρ.coupled i n s _ h with
    | executing hexec => cases hexec.runs
    | resting hrest => rcases hrest.place with hp | ⟨hp, -⟩ <;> cases hp
    | gone hgone => exact ⟨s, h.1, hgone.retired⟩

/-! ## A thread that has exited -/

/-- A worker whose thread has exited is lost. -/
theorem lost_of_exited (ρ : Run) (i : Nat) : ∀ n s p, ρ.Has n i s p → p = .exited → s.Lost := by
  refine worker_induction (fun l => nofun) ?_
  intro n s p s' p' h h' he ih hp
  have houtside : p.inside ≠ true := by
    intro hinside
    obtain ⟨_, _, -, hexec⟩ := executing_of_inside h hinside
    rcases hexec.effect he with hexec' | ⟨_, -, hwait, -⟩
    · rw [hp] at hexec'
      cases hexec'.runs
    · simp [hp] at hwait
  cases he with
  | rest => exact ih hp
  | operate event change =>
    have hlost := ih hp
    obtain ⟨hretired, hstate, herror⟩ :=
      change.of_retired (Event.client_or_shutdown event) hlost.retired hlost.state
    exact ⟨hstate, hretired, herror.trans hlost.error⟩
  | exit => exact s.lost_retire
  | close | pass | settle | report => cases hp
  | enter | poll | called | timed => exact absurd rfl houtside

/-- A thread that has exited stays so. -/
theorem exited_of_le (hp : ρ.phase? n i = some .exited) (hnt : n ≤ t) :
    ρ.phase? t i = some .exited := by
  induction hnt with
  | refl => exact hp
  | @step t hnt ih =>
    have hstill : ρ.acts i t ≠ true := by
      intro hacts
      obtain ⟨m, g, hm, -⟩ := exists_move_of_acts hacts
      simp [Fleet.move_of_exited ih] at hm
    exact (phase?_succ_of_not_acts (by simpa using hstill)).trans ih

/-- A retired worker is lost from then on. -/
theorem Retired.lost (h : ρ.Retired n i) (hnt : n ≤ t) : (ρ.fleet t).registry.Lost i := by
  obtain ⟨s, hhas⟩ := has_of_phase? (exited_of_le (retired_iff.1 h) hnt)
  exact Registry.lost_of_slot (lost_of_exited ρ i t s _ hhas rfl) hhas.1

/-- A thread that has not exited can go on. -/
theorem exists_turn (hi : i < ρ.lcores.length) (h : ¬ρ.Retired n i) (outcome : Outcome)
    (now : Nat) : ∃ g, (ρ.fleet n).turn? i outcome now = some g := by
  obtain ⟨s, p, hhas⟩ := exists_has hi n
  refine Fleet.exists_turn (ρ.fleet n) hhas.2 (fun hexited => h ?_) outcome now
  exact retired_iff.2 (hexited ▸ hhas.2)

/-- A thread that goes on after the shutdown exits. -/
theorem exists_retired (hk : ρ.op? k = some .shutdown) (hi : i < ρ.lcores.length)
    (hgoes : ∀ a, ∃ t ≥ a, ρ.Retired t i ∨ ρ.acts i t = true) : ∃ n, ρ.Retired n i := by
  refine Classical.byContradiction fun hnever => ?_
  have hacts (a : Nat) : ∃ t ≥ a, ρ.acts i t = true := by
    obtain ⟨t, ht, hretired | hacts⟩ := hgoes a
    · exact absurd ⟨t, hretired⟩ hnever
    · exact ⟨t, ht, hacts⟩
  obtain ⟨n, hn, hseven⟩ := exists_le_actions hacts (k + 1) 7
  obtain ⟨s, p, h⟩ := exists_has hi n
  have hsix : p.remaining + ρ.actions i (k + 1) n ≤ 6 :=
    remaining_add_actions (fun t => down_of_shutdown hk) hn h.2
  omega

/-! ## The end of every worker -/

/-- After the shutdown every look of a waiting thread tells it to leave, and no thread passes
the gate. A thread makes at most six steps, after which its worker is retired ; until then it
has a next step, however a call of it ends, so that it exits if it goes on. A retired worker
stays so, in state error and with the text of its end : it is given nothing and not reset, and
no start succeeds. -/
theorem shutdown_ends_workers (ρ : Run) {k i : Nat} (hk : ρ.op? k = some .shutdown)
    (hi : i < ρ.lcores.length) :
    (∀ n, k < n → ((ρ.fleet n).registry.awaken i).answer = .closed ∧
      ∀ snapshot, ¬ρ.Enters n i snapshot) ∧
    (∀ n, k < n → ρ.actions i (k + 1) n ≤ 6 ∧ (ρ.actions i (k + 1) n = 6 → ρ.Retired n i)) ∧
    (∀ n, k < n → ¬ρ.Retired n i → ∀ outcome now,
      ∃ g, (ρ.fleet n).turn? i outcome now = some g) ∧
    ((∀ a, ∃ t ≥ a, ρ.Retired t i ∨ ρ.acts i t = true) → ∃ n, ρ.Retired n i) ∧
    ∀ n t, ρ.Retired n i → n ≤ t → (ρ.fleet t).registry.Lost i := by
  have hdown {n : Nat} (hkn : k < n) := down_of_shutdown hk hkn
  have hbound {n : Nat} {p : Phase} (hkn : k < n) (hp : ρ.phase? n i = some p) :
      p.remaining + ρ.actions i (k + 1) n ≤ 6 := remaining_add_actions (fun t => hdown) hkn hp
  refine ⟨fun n hkn => ⟨?_, fun snapshot => not_enters_of_down (hdown hkn)⟩,
    fun n hkn => ?_, fun n _ hpresent => exists_turn hi hpresent, exists_retired hk hi,
    fun n t hretired => hretired.lost⟩
  · simp [Registry.awaken, hdown hkn, Registry.answer]
  · obtain ⟨s, p, h⟩ := exists_has hi n
    have hle := hbound hkn h.2
    refine ⟨Nat.le_trans (Nat.le_add_left ..) hle, fun hfull => ?_⟩
    have hnone : p.remaining = 0 := by omega
    exact retired_iff.2 (Phase.exited_of_remaining hnone ▸ h.2)

/-- A worker is started after the shutdown, which its thread has not yet learnt of. The thread
exits, and the next start is refused. -/
def lateStart : Run := .ofEvents [.worker 1] [
  .shutdown, .operate .start (.refl true), .move 0 .look, .move 0 .exit,
  .operate .start (.refl true)]

/-- The worker of `lateStart` is lost when its thread has made two steps, though it was
started in between. -/
theorem shutdown_ends_workers_lateStart :
    lateStart.op? 0 = some .shutdown ∧ 0 < lateStart.lcores.length ∧
    ((lateStart.fleet 2).registry.awaken 0).answer = .closed ∧
    (∃ g, (lateStart.fleet 3).turn? 0 .ok 0 = some g) ∧
    lateStart.actions 0 1 4 ≤ 6 ∧ (lateStart.fleet 5).registry.Lost 0 := by
  obtain ⟨hgate, hsteps, hturn, -, hlost⟩ :=
    shutdown_ends_workers lateStart (k := 0) (i := 0) rfl (by decide)
  have hpresent : ¬lateStart.Retired 3 0 := by
    rintro ⟨s, hs, hretired⟩
    obtain rfl := Option.some.inj hs
    cases hretired
  refine ⟨rfl, by decide, (hgate 2 (by decide)).1, hturn 3 (by decide) hpresent .ok 0,
    (hsteps 4 (by decide)).1, ?_⟩
  exact hlost 4 5 ⟨_, rfl, rfl⟩ (by decide)

/-! ## Starts after the shutdown -/

/-- A worker does not come to run but by a start. -/
theorem running_of_not_starts (hs : ρ.slot? n i = some s) (hs' : ρ.slot? (n + 1) i = some s')
    (hstart : ¬ρ.Starts n) (hrun : s'.state = .running) : s.state = .running := by
  obtain ⟨p, h⟩ := has_of_slot? hs
  obtain ⟨p', h'⟩ := has_of_slot? hs'
  cases h.effect h' with
  | operate event change =>
    have hrefused := refused_of_not_starts event hstart
    exact (change.of_running (Event.client_or_shutdown event) hrefused hrun).1
  | @report failure =>
    rcases Registry.finish_state s failure with hidle | herror
    · simp [hidle] at hrun
    · simp [herror] at hrun
  | settle | exit => cases hrun
  | _ => exact hrun

/-- A thread whose worker is idle is outside of its run loop, and there. -/
theorem place_of_idle (h : ρ.Has n i s p) (hidle : s.state = .idle) :
    p = .waiting ∨ p = .leaving := by
  cases ρ.coupled i n s p h with
  | executing hexec => exact absurd hidle hexec.state_ne_idle
  | resting hrest => exact hrest.place.imp_right And.left
  | gone hgone => exact absurd (hidle.symm.trans hgone.state) nofun

/-- After the shutdown a start is let through only while every thread waits or leaves, and no
thread runs anything from then on. Once a worker is retired no start is let through, and no
worker comes to run. -/
theorem starts_after_shutdown (ρ : Run) {k n : Nat} (hk : ρ.op? k = some .shutdown)
    (hkn : k < n) :
    (ρ.Starts n → (∀ i p, ρ.phase? n i = some p → p = .waiting ∨ p = .leaving) ∧
      ∀ t i p, n ≤ t → ρ.phase? t i = some p → p.inside = false) ∧
    ((∃ i, ρ.Retired n i) → ¬ρ.Starts n ∧ ∀ i s s', ρ.slot? n i = some s →
      ρ.slot? (n + 1) i = some s' → s'.state = .running → s.state = .running) := by
  refine ⟨fun hstart => ?_, fun ⟨j, hretired⟩ => ?_⟩
  · have hplace {i : Nat} {s : Slot} {p : Phase} (h : ρ.Has n i s p) :
        p = .waiting ∨ p = .leaving :=
      place_of_idle h ((starts_iff.1 hstart).2 i s h.1)
    refine ⟨fun i p hp => ?_, fun t i p hnt hp => ?_⟩
    · obtain ⟨s, h⟩ := has_of_phase? hp
      exact hplace h
    · obtain ⟨s, h⟩ := has_of_phase? hp
      refine outside_of_le hnt (fun u snapshot hnu _ => ?_) (fun s q hq => ?_) s p h
      · exact not_enters_of_down (down_of_shutdown hk (Nat.lt_of_lt_of_le hkn hnu))
      · rcases hplace hq with rfl | rfl <;> rfl
  · have hrefused : ¬ρ.Starts n := by
      intro hstart
      obtain ⟨s, h⟩ := has_of_phase? (retired_iff.1 hretired)
      rcases place_of_idle h ((starts_iff.1 hstart).2 j s h.1) with hp | hp <;> cases hp
    exact ⟨hrefused, fun i s s' hs hs' => running_of_not_starts hs hs' hrefused⟩

/-- The first start of `lateStart` is let through and runs nothing, the second one is not. -/
theorem starts_after_shutdown_lateStart :
    lateStart.op? 0 = some .shutdown ∧ lateStart.Starts 1 ∧
    lateStart.phase? 3 0 = some .leaving ∧ Phase.leaving.inside = false ∧
    ¬lateStart.Starts 4 := by
  have hstart : lateStart.Starts 1 := by decide
  have hrun := (starts_after_shutdown lateStart (k := 0) (n := 1) rfl (by decide)).1 hstart
  have hretired : lateStart.Retired 4 0 := ⟨_, rfl, rfl⟩
  have hend := (starts_after_shutdown lateStart (k := 0) (n := 4) rfl (by decide)).2 ⟨0, hretired⟩
  exact ⟨rfl, hstart, rfl, hrun.2 3 0 _ (by decide) rfl, hend.1⟩

/-- A start is let through after the shutdown, and makes the worker running. -/
theorem start_let_through_after_shutdown : lateStart.lcores ≠ [] ∧
    lateStart.op? 0 = some .shutdown ∧ lateStart.Starts 1 ∧
    ∃ s, lateStart.slot? 2 0 = some s ∧ s.state = .running :=
  ⟨by decide, rfl, by decide, _, rfl, rfl⟩

end Run

end CoreFleet
