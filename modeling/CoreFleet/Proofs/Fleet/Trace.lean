import CoreFleet.Proofs.Fleet.Iteration

/-!
# What threads do in their run loops

A `Deed` is what a thread does in its run loop : it finds its flag up or down, returns from a call
of its unit, looks at the timer, returns from a timer call, or has slept. `Run.deeds` are the deeds
of a thread at one event, and `Run.trace` those of a stretch of the run. They are read off the
positions and the moves of the thread, and have no effect of their own.

`Phase.Goes` lists what an event makes of a thread past the gate, together with its deeds, and
`Fleet.goes` says that there is nothing else. What each of these steps keeps of a trace and a
position, holds throughout an execution (`Executes.trace_induction`). An execution begins its loop
once, and has done nothing before (`Executes.begun`).
-/

namespace CoreFleet

/-- What a thread does in its run loop. -/
inductive Deed
  /-- Finds its run flag up or down. -/
  | check (up : Bool)
  /-- Returns from a call of its unit. -/
  | call (outcome : Outcome)
  /-- Looks at the timer of its pipeline, at a clock reading, and calls it or not. -/
  | look (reading : Nat) (rings : Bool)
  /-- Returns from a call of the timer. -/
  | timer (outcome : Outcome)
  /-- Has slept, as it has no unit. -/
  | sleep
  deriving DecidableEq

/-- What a thread does as the call ends in which it is. -/
def Loop.deedsAfterCall (loop : Loop) (outcome : Outcome) (now : Nat) : List Deed :=
  match loop with
  | .idle => [.sleep]
  | .block _ => [.call outcome]
  | .pipeline _ gate =>
    if outcome = .ok ∧ gate.tick.looks = true then
      [.call outcome, .look now (loop.afterCall outcome now).timing]
    else [.call outcome]

/-- After a call that fails a pipeline loop does nothing more. -/
theorem Loop.deedsAfterCall_of_failure {outcome : Outcome} {reason : String}
    (h : outcome.failure = some reason) (ref : PipelineRef) (gate : TimerGate) (now : Nat) :
    (pipeline ref gate).deedsAfterCall outcome now = [.call outcome] := by
  refine if_neg ?_
  rintro ⟨rfl, -⟩
  cases h

/-- After a call that succeeds a pipeline loop looks at the timer, or does not. -/
theorem Loop.deedsAfterCall_ok (ref : PipelineRef) (gate : TimerGate) (now : Nat) :
    (pipeline ref gate).deedsAfterCall .ok now =
      .call .ok :: if gate.tick.looks then [.look now (gate.tick.isDue now)] else [] := by
  cases hlooks : gate.tick.looks <;> cases hdue : gate.tick.isDue now <;>
    simp [deedsAfterCall, afterCall, Outcome.failure, Phase.timing, hlooks, hdue]

/-- What a thread that stands here does with a move, its run flag being up or not. -/
def Phase.deeds (flag : Bool) : Phase → Move → List Deed
  | .looping _ .check, .poll => [.check flag]
  | .looping loop .call, .back outcome now => loop.deedsAfterCall outcome now
  | .looping _ (.timer _), .back outcome _ => [.timer outcome]
  | _, _ => []

/-! ## One event -/

/-- What an event makes of a thread past the gate, and what the thread does. -/
inductive Phase.Goes (f : Fleet) (i : Nat) (e : Event) : Phase → List Deed → Phase → Prop
  /-- The event is about somebody else, or cannot happen. -/
  | stay {p : Phase} : Goes f i e p [] p
  | enter {snapshot : Option Assignment} {now : Nat} (event : e = .move i (.enter now)) :
    Goes f i e (.entering snapshot) [] (Loop.enter f.tuning f.alive now snapshot)
  | poll {loop : Loop} (event : e = .move i .poll) :
    Goes f i e (.looping loop .check) [.check (f.flagAt i)] (loop.poll (f.flagAt i))
  | called {loop : Loop} {outcome : Outcome} {now : Nat}
    (event : e = .move i (.back outcome now)) :
    Goes f i e (.looping loop .call) (loop.deedsAfterCall outcome now) (loop.afterCall outcome now)
  | timed {loop : Loop} {reading now : Nat} {outcome : Outcome}
    (event : e = .move i (.back outcome now)) :
    Goes f i e (.looping loop (.timer reading)) [.timer outcome] (loop.afterTimer outcome reading)
  | report {failure : Option String} (event : e = .move i .report) :
    Goes f i e (.finishing failure) [] .waiting

theorem Loop.enter_ne_entering (tuning : Tuning) (alive : UnitId → Bool) (now : Nat)
    (snapshot a : Option Assignment) : Loop.enter tuning alive now snapshot ≠ .entering a := by
  unfold Loop.enter
  repeat' split
  all_goals nofun

/-- A thread that has begun its loop does not begin it again. -/
theorem Phase.Goes.ne_entering {f : Fleet} {i : Nat} {e : Event} {p q : Phase} {d : List Deed}
    (h : p.Goes f i e d q) (hp : ∀ a, p ≠ .entering a) (a : Option Assignment) :
    q ≠ .entering a := by
  cases h with
  | stay => exact hp a
  | enter => exact absurd rfl (hp _)
  | poll =>
    unfold Loop.poll
    split <;> nofun
  | called =>
    unfold Loop.afterCall
    repeat' split
    all_goals nofun
  | timed =>
    unfold Loop.afterTimer
    repeat' split
    all_goals nofun
  | report => nofun

namespace Fleet

variable {f : Fleet} {i : Nat} {e : Event} {p : Phase}

/-- What the thread of the worker at `i` does in its loop at an event. -/
def deeds (f : Fleet) (i : Nat) : Event → List Deed
  | .move k m => if k = i then f.phases[i]?.elim [] fun p => p.deeds (f.flagAt i) m else []
  | _ => []

theorem goes_move (m : Move) (hp : f.phases[i]? = some p) (hin : p.inside = true) :
    ∃ q, (f.step (.move i m)).phases[i]? = some q ∧
      p.Goes f i (.move i m) (f.deeds i (.move i m)) q := by
  have hset : ∀ q, (f.phases.set i q)[i]? = some q := fun q =>
    List.getElem?_set_self (List.getElem?_eq_some_iff.1 hp).1
  have hdeeds : f.deeds i (.move i m) = p.deeds (f.flagAt i) m := by simp [deeds, hp]
  have hstep : f.step (.move i m) = (f.move i m).getD f := rfl
  rw [hdeeds, hstep]
  cases hm : f.move i m with
  | none =>
    refine ⟨p, hp, ?_⟩
    have hnone : p.deeds (f.flagAt i) m = [] := by
      unfold Phase.deeds
      split <;> simp_all [move]
    rw [hnone]
    exact .stay
  | some g =>
    simp only [Option.getD_some]
    unfold move at hm
    rw [hp] at hm
    split at hm <;> rename_i heq
    case h_8 => simp at hm
    all_goals
      obtain rfl := Option.some.inj hm
      obtain rfl := Option.some.inj heq
    case h_1 | h_7 => cases hin
    case h_2 => exact ⟨_, hset _, .enter rfl⟩
    case h_3 => exact ⟨_, hset _, .poll rfl⟩
    case h_4 => exact ⟨_, hset _, .called rfl⟩
    case h_5 => exact ⟨_, hset _, .timed rfl⟩
    case h_6 => exact ⟨_, hset _, .report rfl⟩

/-- An event does to a thread past the gate one of the things in `Goes`. -/
theorem goes (e : Event) (hp : f.phases[i]? = some p) (hin : p.inside = true) :
    ∃ q, (f.step e).phases[i]? = some q ∧ p.Goes f i e (f.deeds i e) q := by
  cases e with
  | operate | shutdown | release => exact ⟨p, hp, .stay⟩
  | move k m =>
    by_cases hki : k = i
    · subst hki
      exact goes_move m hp hin
    · refine ⟨p, ?_, by simpa [deeds, hki] using .stay⟩
      cases hm : f.move k m with
      | none => simpa [step, hm] using hp
      | some g => simpa [step, hm, (getElem?_move_ne hm hki).2] using hp

/-- A thread does nothing at an event, checks its flag, or returns from a call. -/
theorem deeds_cases (f : Fleet) (i : Nat) (e : Event) : f.deeds i e = [] ∨
    f.deeds i e = [.check (f.flagAt i)] ∨
    (∃ loop outcome now, f.phases[i]? = some (.looping loop .call) ∧
      e = .move i (.back outcome now) ∧ f.deeds i e = loop.deedsAfterCall outcome now) ∨
    ∃ outcome, f.deeds i e = [.timer outcome] := by
  cases e with
  | operate | shutdown | release => exact Or.inl rfl
  | move k m =>
    by_cases hki : k = i
    · subst hki
      cases hp : f.phases[k]? with
      | none => exact Or.inl (by simp [deeds, hp])
      | some p =>
        have hdeeds : f.deeds k (.move k m) = p.deeds (f.flagAt k) m := by simp [deeds, hp]
        rw [hdeeds]
        unfold Phase.deeds
        split
        · exact Or.inr (Or.inl rfl)
        · exact Or.inr (Or.inr (Or.inl ⟨_, _, _, rfl, rfl, rfl⟩))
        · exact Or.inr (Or.inr (Or.inr ⟨_, rfl⟩))
        · exact Or.inl rfl
    · exact Or.inl (by simp [deeds, hki])

/-- The tuning stays as it is. -/
theorem tuning_step (f : Fleet) (e : Event) : (f.step e).tuning = f.tuning := by
  cases e with
  | operate | shutdown | release => rfl
  | move k m =>
    cases hm : f.move k m with
    | none => simp [step, hm]
    | some g =>
      simp only [step, hm, Option.getD_some]
      unfold move at hm
      split at hm
      case h_8 => simp at hm
      all_goals
        obtain rfl := Option.some.inj hm
        rfl

end Fleet

namespace Run

variable {ρ : Run} {a e i m n t : Nat} {p q : Phase} {snapshot : Option Assignment} {x : Deed}

/-- What the thread of the worker at `i` does in its loop at event `n`. -/
def deeds (ρ : Run) (i n : Nat) : List Deed := (ρ.fleet n).deeds i (ρ.schedule n)

/-- What the thread of the worker at `i` does in its loop from event `m` on before event `n`. -/
def trace (ρ : Run) (i m n : Nat) : List Deed := (List.range' m (n - m)).flatMap (ρ.deeds i)

/-- At event `n` the thread of the worker at `i`, past the gate with this snapshot, begins its
loop, at a clock reading. A pipeline is upgraded now. -/
def Begins (ρ : Run) (n i : Nat) (snapshot : Option Assignment) (now : Nat) : Prop :=
  ρ.phase? n i = some (.entering snapshot) ∧ ρ.schedule n = .move i (.enter now)

/-! ## Traces -/

theorem trace_self (ρ : Run) (i m : Nat) : ρ.trace i m m = [] := by simp [trace]

theorem trace_succ (ρ : Run) (i : Nat) (h : m ≤ n) :
    ρ.trace i m (n + 1) = ρ.trace i m n ++ ρ.deeds i n := by
  rw [trace, Nat.succ_sub h, List.range'_concat, List.flatMap_append, Nat.one_mul,
    Nat.add_sub_cancel' h]
  simp [trace]

theorem trace_append (ρ : Run) (i : Nat) (hma : m ≤ a) (han : a ≤ n) :
    ρ.trace i m n = ρ.trace i m a ++ ρ.trace i a n := by
  induction han with
  | refl => rw [trace_self, List.append_nil]
  | @step n han ih =>
    rw [trace_succ ρ i (Nat.le_trans hma han), trace_succ ρ i han, ih, List.append_assoc]

theorem mem_trace : x ∈ ρ.trace i m n ↔ ∃ t, m ≤ t ∧ t < n ∧ x ∈ ρ.deeds i t := by
  simp only [trace, List.mem_flatMap, List.mem_range'_1]
  constructor
  · rintro ⟨t, ⟨hmt, htn⟩, hx⟩
    exact ⟨t, hmt, by omega, hx⟩
  · rintro ⟨t, hmt, htn, hx⟩
    exact ⟨t, ⟨hmt, by omega⟩, hx⟩

theorem tuning_fleet (ρ : Run) : ∀ n, (ρ.fleet n).tuning = ρ.tuning
  | 0 => rfl
  | n + 1 => (Fleet.tuning_step ..).trans (tuning_fleet ρ n)

/-! ## Executions -/

theorem Executes.inside (h : ρ.Executes i m n snapshot) (hp : ρ.phase? n i = some p) :
    p.inside = true := by
  obtain ⟨s, q, hhas, hexec, -⟩ := h.executing
  obtain rfl := Option.some.inj (hp.symm.trans hhas.2)
  exact hexec.runs.inside

theorem Executes.exists_phase (h : ρ.Executes i m n snapshot) : ∃ p, ρ.phase? n i = some p :=
  let ⟨_, p, hhas, _⟩ := h.executing
  ⟨p, hhas.2⟩

/-- An execution has lasted since its thread passed the gate. -/
theorem Executes.of_le (h : ρ.Executes i m n snapshot) (hmt : m < t) (htn : t ≤ n) :
    ρ.Executes i m t snapshot :=
  ⟨hmt, h.2.1, fun u failure hmu hut => h.2.2 u failure hmu (Nat.lt_of_lt_of_le hut htn)⟩

/-- An execution goes on with one of the steps in `Goes`. -/
theorem Executes.goes (h : ρ.Executes i m n snapshot) (hp : ρ.phase? n i = some p)
    (hq : ρ.phase? (n + 1) i = some q) :
    p.Goes (ρ.fleet n) i (ρ.schedule n) (ρ.deeds i n) q := by
  obtain ⟨q', hq', hgoes⟩ := Fleet.goes (ρ.schedule n) hp (h.inside hp)
  obtain rfl := Option.some.inj (hq.symm.trans hq')
  exact hgoes

/-- What holds of an execution at one time, and is kept by each of its steps, holds from then
on. -/
theorem Executes.trace_induction {motive : List Deed → Phase → Prop}
    (h : ρ.Executes i m n snapshot) (hma : m < a) (han : a ≤ n)
    (base : ∀ p, ρ.phase? a i = some p → motive (ρ.trace i m a) p)
    (step : ∀ t d p d' q, p.Goes (ρ.fleet t) i (ρ.schedule t) d' q → q.inside = true →
      motive d p → motive (d ++ d') q) :
    ∀ p, ρ.phase? n i = some p → motive (ρ.trace i m n) p := by
  induction han with
  | refl => exact base
  | @step n han ih =>
    intro q hq
    have hbefore := h.pred (Nat.lt_of_lt_of_le hma han)
    obtain ⟨p, hp⟩ := hbefore.exists_phase
    rw [trace_succ ρ i (Nat.le_of_lt hbefore.1)]
    exact step n _ p _ q (hbefore.goes hp hq) (h.inside hq) (ih hbefore p hp)

theorem phase?_of_setPhase (hp : ρ.phase? n i = some p)
    (hstep : ρ.fleet (n + 1) = (ρ.fleet n).setPhase i q) : ρ.phase? (n + 1) i = some q := by
  have hi : i < (ρ.fleet n).phases.length := (List.getElem?_eq_some_iff.1 hp).1
  simp [Run.phase?, hstep, Fleet.setPhase, hi]

theorem Begins.phase? (h : ρ.Begins n i snapshot t) : ρ.phase? (n + 1) i =
    some (Loop.enter ρ.tuning (ρ.fleet n).alive t snapshot) := by
  have hp : (ρ.fleet n).phases[i]? = some (.entering snapshot) := h.1
  exact phase?_of_setPhase h.1 (by simp [fleet, h.2, Fleet.step, Fleet.move, hp, tuning_fleet])

/-- A call of the unit returns, and the thread goes on. -/
theorem phase?_succ_of_called {loop : Loop} {outcome : Outcome} {now : Nat}
    (hp : ρ.phase? n i = some (.looping loop .call))
    (event : ρ.schedule n = .move i (.back outcome now)) :
    ρ.phase? (n + 1) i = some (loop.afterCall outcome now) := by
  have hplace : (ρ.fleet n).phases[i]? = some (.looping loop .call) := hp
  exact phase?_of_setPhase hp (by simp [fleet, event, Fleet.step, Fleet.move, hplace])

/-- An execution is about to begin its loop, or has done so at one event. Before, it has done
nothing. -/
theorem Executes.begun : ∀ {n : Nat}, ρ.Executes i m n snapshot →
    (ρ.phase? n i = some (.entering snapshot) ∧ ρ.trace i m n = []) ∨
      ∃ e now, m < e ∧ e < n ∧ ρ.Begins e i snapshot now ∧ ρ.trace i m (e + 1) = []
  | 0, h => absurd h.1 (Nat.not_lt_zero m)
  | n + 1, h => by
    rcases Nat.lt_succ_iff_lt_or_eq.1 h.1 with hmn | rfl
    · rcases (h.pred hmn).begun with ⟨hp, htrace⟩ | ⟨e, now, hme, hen, hrest⟩
      · obtain ⟨q, hq⟩ := h.exists_phase
        have hgoes := (h.pred hmn).goes hp hq
        have hnext := trace_succ ρ i (Nat.le_of_lt hmn)
        rw [htrace, List.nil_append] at hnext
        generalize hd : ρ.deeds i n = d at hgoes hnext
        cases hgoes with
        | stay => exact Or.inl ⟨hq, hnext⟩
        | enter event => exact Or.inr ⟨n, _, hmn, Nat.lt_succ_self n, ⟨hp, event⟩, hnext⟩
      · exact Or.inr ⟨e, now, hme, Nat.lt_succ_of_lt hen, hrest⟩
    · have hp : (ρ.fleet m).phases[i]? = some .waiting := h.2.1.1
      have hnone : ρ.deeds i m = [] := by
        unfold deeds Fleet.deeds
        split
        · split <;> simp [hp, Phase.deeds]
        · rfl
      exact Or.inl ⟨h.2.1.2, by rw [trace_succ ρ i (Nat.le_refl m), trace_self, hnone]; rfl⟩

/-- A loop that has begun does not begin again. -/
theorem Executes.not_entering (h : ρ.Executes i m n snapshot) {a b : Option Assignment}
    (hbegins : ρ.Begins e i a t) (hme : m < e) (hen : e < n) :
    ρ.phase? n i ≠ some (.entering b) := by
  refine fun hp => absurd rfl (h.trace_induction (motive := fun _ p => ∀ b, p ≠ .entering b)
    (Nat.lt_succ_of_lt hme) hen (fun p hp => ?_) (fun t d p d' q hgoes _ => hgoes.ne_entering)
    _ hp b)
  obtain rfl := Option.some.inj (hp.symm.trans hbegins.phase?)
  exact Loop.enter_ne_entering _ _ _ _

theorem Executes.begins_unique (h : ρ.Executes i m n snapshot) {a b : Option Assignment}
    (hbegins : ρ.Begins e i a t) (hme : m < e) (hen : e < n) {e' t' : Nat}
    (hbegins' : ρ.Begins e' i b t') (hme' : m < e') (hen' : e' < n) : e = e' := by
  rcases Nat.lt_trichotomy e e' with hlt | heq | hlt
  · exact absurd hbegins'.1 ((h.of_le hme' (Nat.le_of_lt hen')).not_entering hbegins hme hlt)
  · exact heq
  · exact absurd hbegins.1 ((h.of_le hme (Nat.le_of_lt hen)).not_entering hbegins' hme' hlt)

/-- A loop that is over does nothing more. -/
theorem Executes.finished (h : ρ.Executes i m n snapshot) {failure : Option String} (hmt : m < t)
    (htn : t ≤ n) (hp : ρ.phase? t i = some (.finishing failure)) :
    ρ.trace i m n = ρ.trace i m t ∧ ρ.phase? n i = some (.finishing failure) := by
  obtain ⟨p, hp'⟩ := h.exists_phase
  have hover := h.trace_induction (motive := fun d p => d = ρ.trace i m t ∧ p = .finishing failure)
    hmt htn (fun p hp' => ⟨rfl, Option.some.inj (hp'.symm.trans hp)⟩)
    (fun t d p d' q hgoes hin ⟨hd, hover⟩ => by
      subst hover
      cases hgoes with
      | stay => exact ⟨by rw [List.append_nil, hd], rfl⟩
      | report => cases hin) p hp'
  exact ⟨hover.1, hover.2 ▸ hp'⟩

/-- A thread that is about to begin its loop has done nothing. -/
theorem Executes.trace_of_entering {a : Option Assignment} (h : ρ.Executes i m n snapshot)
    (hp : ρ.phase? n i = some (.entering a)) : ρ.trace i m n = [] := by
  rcases h.begun with ⟨-, hnone⟩ | ⟨e, now, hme, hen, hbegins, -⟩
  · exact hnone
  · exact absurd hp (h.not_entering hbegins hme hen)

/-- As its loop begins, a thread has done nothing. -/
theorem Executes.trace_of_begins (h : ρ.Executes i m n snapshot) {a : Option Assignment}
    (hbegins : ρ.Begins n i a t) : ρ.trace i m (n + 1) = [] := by
  rw [trace_succ ρ i (Nat.le_of_lt h.1), h.trace_of_entering hbegins.1]
  have hp : (ρ.fleet n).phases[i]? = some (.entering a) := hbegins.1
  simp [deeds, Fleet.deeds, hbegins.2, hp, Phase.deeds]

end Run

end CoreFleet
