import CoreFleet.Proofs.Fleet.Run

/-!
# Slots and threads agree

What a worker's slot says and where its thread stands belong together. A thread that
executes a snapshot has a slot that is running with this very snapshot, or that was asked
to stop and holds the snapshot or nothing (`Executing`). Between two executions the flag is
up exactly when the worker is running, and then the worker holds what it held at the last
start (`Resting`). `coupled` says so of every worker after any number of events.

No field of these invariants is kept by itself. That a loop ends well only in a worker that
was asked to stop needs the flag, the flag needs the state, and a start leaves both alone
since it is refused while anybody executes.
-/

namespace CoreFleet

/-! ## Positions of a thread that executes -/

/-- The assignment that a run loop runs. -/
def Loop.assignment? : Loop → Option Assignment
  | pipeline ref _ => some (.pipeline ref)
  | block b => some (.block b)
  | idle => none

/-- The thread has passed the gate with this snapshot and not reported yet. Only a unit has
a timer, and only a unit fails. -/
inductive Phase.Runs (snapshot : Option Assignment) : Phase → Prop
  | entering : Runs snapshot (.entering snapshot)
  | looping {loop : Loop} {point : Point} (same : loop.assignment? = snapshot)
    (timer : ∀ reading, point = .timer reading → snapshot ≠ none) :
    Runs snapshot (.looping loop point)
  | ended : Runs snapshot (.finishing none)
  | failed {reason : String} (unit : snapshot ≠ none) : Runs snapshot (.finishing (some reason))

section Loop

variable {snapshot : Option Assignment} {loop : Loop}

theorem Loop.runs_enter (tuning : Tuning) (alive : UnitId → Bool) (now : Nat)
    (snapshot : Option Assignment) : (Loop.enter tuning alive now snapshot).Runs snapshot ∧
      Loop.enter tuning alive now snapshot ≠ .finishing none := by
  unfold Loop.enter
  split
  · split
    · exact ⟨.looping rfl nofun, nofun⟩
    · exact ⟨.failed nofun, nofun⟩
  · exact ⟨.looping rfl nofun, nofun⟩
  · exact ⟨.looping rfl nofun, nofun⟩

theorem Loop.runs_poll (h : loop.assignment? = snapshot) (flag : Bool) :
    (loop.poll flag).Runs snapshot ∧ (loop.poll flag = .finishing none → flag = false) := by
  cases flag
  · exact ⟨.ended, fun _ => rfl⟩
  · exact ⟨.looping h nofun, nofun⟩

theorem Loop.runs_afterCall (h : loop.assignment? = snapshot) (outcome : Outcome) (now : Nat) :
    (loop.afterCall outcome now).Runs snapshot ∧
      loop.afterCall outcome now ≠ .finishing none := by
  subst h
  unfold Loop.afterCall
  cases loop with
  | idle => exact ⟨.looping rfl nofun, nofun⟩
  | block b =>
    cases outcome.failure with
    | none => exact ⟨.looping rfl nofun, nofun⟩
    | some reason => exact ⟨.failed nofun, nofun⟩
  | pipeline ref gate =>
    cases outcome.failure with
    | none => exact ⟨.looping rfl fun _ _ => nofun, nofun⟩
    | some reason => exact ⟨.failed nofun, nofun⟩

theorem Loop.runs_afterTimer (h : loop.assignment? = snapshot) (unit : snapshot ≠ none)
    (outcome : Outcome) (reading : Nat) : (loop.afterTimer outcome reading).Runs snapshot ∧
      loop.afterTimer outcome reading ≠ .finishing none := by
  subst h
  unfold Loop.afterTimer
  cases outcome.failure with
  | none => cases loop <;> exact ⟨.looping rfl nofun, nofun⟩
  | some reason => exact ⟨.failed unit, nofun⟩

end Loop

/-! ## The invariants of a worker -/

/-- The worker executes this snapshot. -/
structure Executing (snapshot : Option Assignment) (s : Slot) (p : Phase) : Prop where
  runs : p.Runs snapshot
  present : s.retired = false
  flag : s.flag = decide (s.state = .running)
  active : s.state = .running ∨ s.state = .stopping
  /-- A worker that was asked to stop may have lost its unit. -/
  unit : s.assignment = snapshot ∨ s.state = .stopping ∧ s.assignment = none
  /-- A loop ends well only on request. -/
  asked : p = .finishing none → s.state = .stopping

/-- The worker's thread is outside of its run loop. The worker was last started with this
snapshot, in a registry that is shut down or not. -/
structure Resting (down : Bool) (snapshot : Option Assignment) (s : Slot) (p : Phase) :
    Prop where
  place : p = .waiting ∨ p = .leaving ∧ down = true
  present : s.retired = false
  flag : s.flag = decide (s.state = .running)
  launched : s.state = .running → s.assignment = snapshot
  /-- What has failed is the unit that was started. -/
  failed : s.state = .error → s.assignment = snapshot ∧ snapshot ≠ none

/-- The worker's thread has exited. -/
structure Gone (down : Bool) (s : Slot) (p : Phase) : Prop where
  place : p = .exited
  closed : down = true
  retired : s.retired = true
  state : s.state = .error

/-- How the slot and the thread of a worker go together. -/
inductive Coupled (down : Bool) (snapshot : Option Assignment) (s : Slot) (p : Phase) : Prop
  | executing (h : Executing snapshot s p)
  | resting (h : Resting down snapshot s p)
  | gone (h : Gone down s p)

variable {r : Registry} {f : Fleet} {e : Event} {op : Operation} {i : Nat} {s s' : Slot}
  {p p' : Phase} {down : Bool} {snapshot : Option Assignment}

theorem Executing.state_ne_idle (h : Executing snapshot s p) : s.state ≠ .idle := by
  rcases h.active with hs | hs <;> simp [hs]

/-! ### Operations -/

/-- An operation keeps a worker executing : it may ask it to stop, and take its unit. -/
theorem Executing.change (h : Executing snapshot s p)
    (hop : op.isClient = true ∨ op = .shutdown) (hc : r.Change i s op s') :
    Executing snapshot s' p := by
  have hidle := h.state_ne_idle
  have herror : s.state ≠ .error := by rcases h.active with hs | hs <;> simp [hs]
  cases hc with
  | keep => exact h
  | assign _ _ idle => exact absurd idle hidle
  | launch _ idle => exact absurd idle hidle
  | recover _ failed => simp [Slot.recoverable, herror] at failed
  | finish | retire => simp [Operation.isClient] at hop
  | release =>
    rcases s.release_cases with ⟨-, hs⟩ | ⟨hfail, -⟩ | ⟨hrun, -, hs⟩
    · rw [hs]
      exact ⟨h.runs, h.present, rfl, Or.inr rfl, Or.inr ⟨rfl, rfl⟩, fun _ => rfl⟩
    · simp [Slot.recoverable, herror] at hfail
    · have hstop := h.active.resolve_left hrun
      rw [hs]
      exact ⟨h.runs, h.present, h.flag, h.active, Or.inr ⟨hstop, rfl⟩, fun _ => hstop⟩
  | stop =>
    unfold Registry.stopSlot
    split
    case isTrue hrun =>
      have hunit : s.assignment = snapshot := h.unit.resolve_right (by simp [hrun])
      exact ⟨h.runs, h.present, rfl, Or.inr rfl, Or.inl hunit, fun _ => rfl⟩
    case isFalse => exact h
  | shutdown =>
    unfold Slot.shutdown
    rcases h.active with hs | hs
    · have hunit : s.assignment = snapshot := h.unit.resolve_right (by simp [hs])
      exact ⟨h.runs, h.present, by simp [hs], by simp [hs], Or.inl hunit, by simp [hs]⟩
    · exact ⟨h.runs, h.present, by simp [hs], by simp [hs], by simpa [hs] using h.unit,
        by simp [hs]⟩

/-- An operation keeps a worker resting, unless it is a start. -/
theorem Resting.change (h : Resting down snapshot s p)
    (hop : op.isClient = true ∨ op = .shutdown) (hc : r.Change i s op s')
    (hstart : op = .start → r.start.answer ≠ .ok ()) : Resting down snapshot s' p := by
  obtain ⟨hplace, hpresent, hflag, hlaunched, hfailed⟩ := h
  cases hc with
  | keep => exact ⟨hplace, hpresent, hflag, hlaunched, hfailed⟩
  | assign _ _ idle => exact ⟨hplace, hpresent, hflag, by simp [idle], by simp [idle]⟩
  | launch ready => exact absurd ready (hstart rfl)
  | recover _ failed =>
    obtain ⟨hs, -⟩ : s.state = .error ∧ s.retired = false := by
      simpa [Slot.recoverable] using failed
    exact ⟨hplace, hpresent, by simpa [hs, Slot.recover] using hflag,
      by simp [Slot.recover], by simp [Slot.recover]⟩
  | finish | retire => simp [Operation.isClient] at hop
  | release =>
    rcases s.release_cases with ⟨-, hs⟩ | ⟨hfail, hs⟩ | ⟨hrun, hfail, hs⟩
    · rw [hs]
      exact ⟨hplace, hpresent, rfl, by simp, by simp⟩
    · have herror : s.state = .error := by simp_all [Slot.recoverable]
      rw [hs]
      exact ⟨hplace, hpresent, by simpa [herror] using hflag, by simp, by simp⟩
    · have herror : s.state ≠ .error := by simp_all [Slot.recoverable]
      rw [hs]
      exact ⟨hplace, hpresent, hflag, fun h => absurd h hrun, fun h => absurd h herror⟩
  | stop =>
    unfold Registry.stopSlot
    split
    case isTrue =>
      exact ⟨hplace, hpresent, rfl, by simp [Slot.askToStop], by simp [Slot.askToStop]⟩
    case isFalse => exact ⟨hplace, hpresent, hflag, hlaunched, hfailed⟩
  | shutdown =>
    unfold Slot.shutdown
    by_cases hrun : s.state = .running
    · exact ⟨hplace, hpresent, by simp [hrun], by simp [hrun], by simp [hrun]⟩
    · exact ⟨hplace, hpresent, by simp [hrun], by simp [hrun], by simpa [hrun] using hfailed⟩

/-- No operation brings a thread back that has exited. -/
theorem Gone.change (h : Gone down s p) (hop : op.isClient = true ∨ op = .shutdown)
    (hc : r.Change i s op s') : Gone down s' p := by
  obtain ⟨hretired, hstate, -⟩ := hc.of_retired hop h.retired h.state
  exact ⟨h.place, h.closed, hretired, hstate⟩

/-! ### Events -/

theorem Resting.mono {down' : Bool} (h : Resting down snapshot s p)
    (hdown : down = true → down' = true) : Resting down' snapshot s p :=
  ⟨h.place.imp_right fun hp => ⟨hp.1, hdown hp.2⟩, h.present, h.flag, h.launched, h.failed⟩

/-- After its report a worker is idle, or has failed with the unit it executed. -/
theorem Executing.report {failure : Option String}
    (h : Executing snapshot s (.finishing failure)) :
    Resting down snapshot (s.finish failure) .waiting := by
  cases failure with
  | none => exact ⟨Or.inl rfl, h.present, rfl, nofun, nofun⟩
  | some reason =>
    have hunit : snapshot ≠ none := by cases h.runs with | failed unit => exact unit
    simp only [Slot.finish]
    split
    case isTrue => exact ⟨Or.inl rfl, h.present, rfl, nofun, nofun⟩
    case isFalse hheld =>
      have hsame : s.assignment = snapshot := h.unit.resolve_right hheld
      exact ⟨Or.inl rfl, h.present, rfl, nofun, fun _ => ⟨hsame, hunit⟩⟩

/-- An execution goes on until it is reported, whatever happens. -/
theorem Executing.effect (h : Executing snapshot s p) (he : f.Effect i e s p s' p') :
    Executing snapshot s' p' ∨
      ∃ failure, p = .finishing failure ∧ p' = .waiting ∧ s' = s.finish failure := by
  obtain ⟨hruns, hpresent, hflag, hactive, hunit, hasked⟩ := h
  cases he with
  | rest => exact Or.inl ⟨hruns, hpresent, hflag, hactive, hunit, hasked⟩
  | operate event change =>
    exact Or.inl (Executing.change ⟨hruns, hpresent, hflag, hactive, hunit, hasked⟩
      (Event.client_or_shutdown event) change)
  | report => exact Or.inr ⟨_, rfl, rfl, rfl⟩
  | close | pass | settle | exit => cases hruns
  | enter =>
    cases hruns with
    | entering =>
      obtain ⟨hruns, hgoes⟩ := Loop.runs_enter f.tuning f.alive _ snapshot
      exact Or.inl ⟨hruns, hpresent, hflag, hactive, hunit, fun h => absurd h hgoes⟩
  | poll =>
    cases hruns with
    | looping same timer =>
      obtain ⟨hruns, hdown⟩ := Loop.runs_poll same s.flag
      refine Or.inl ⟨hruns, hpresent, hflag, hactive, hunit, fun h => ?_⟩
      exact hactive.resolve_left (by simpa [hdown h] using hflag)
  | called =>
    cases hruns with
    | looping same timer =>
      obtain ⟨hruns, hgoes⟩ := Loop.runs_afterCall same _ _
      exact Or.inl ⟨hruns, hpresent, hflag, hactive, hunit, fun h => absurd h hgoes⟩
  | timed =>
    cases hruns with
    | looping same timer =>
      obtain ⟨hruns, hgoes⟩ := Loop.runs_afterTimer same (timer _ rfl) _ _
      exact Or.inl ⟨hruns, hpresent, hflag, hactive, hunit, fun h => absurd h hgoes⟩

/-- An event that is no start keeps a worker coupled to the last start. -/
theorem Coupled.effect (h : Coupled f.registry.down snapshot s p)
    (he : f.Effect i e s p s' p') (hstart : ¬f.Opens e) :
    Coupled (f.step e).registry.down snapshot s' p' := by
  have hdown : f.registry.down = true → (f.step e).registry.down = true := by
    intro h
    simp [Fleet.down_step, h]
  cases h with
  | executing h =>
    rcases h.effect he with h' | ⟨failure, rfl, rfl, rfl⟩
    · exact .executing h'
    · exact .resting h.report
  | resting h =>
    cases he with
    | rest => exact .resting (h.mono hdown)
    | operate event change =>
      have hrefused : _ = Operation.start → f.registry.start.answer ≠ .ok () :=
        fun hop hok => hstart ⟨event.trans (congrArg some hop), hok⟩
      exact .resting ((h.change (Event.client_or_shutdown event) change hrefused).mono hdown)
    | close _ closed =>
      exact .resting ⟨Or.inr ⟨rfl, hdown closed⟩, h.present, h.flag, h.launched, h.failed⟩
    | pass _ running =>
      exact .executing ⟨h.launched running ▸ .entering, h.present, h.flag, Or.inl running,
        Or.inl (h.launched running), nofun⟩
    | settle _ stopping =>
      exact .resting ⟨Or.inl rfl, h.present, by simpa [stopping] using h.flag, nofun, nofun⟩
    | exit =>
      have hclosed := h.place.resolve_left nofun
      exact .gone ⟨rfl, hdown hclosed.2, rfl, rfl⟩
    | enter | poll | called | timed | report => rcases h.place with hp | ⟨hp, -⟩ <;> cases hp
  | gone h =>
    cases he with
    | rest => exact .gone ⟨h.place, hdown h.closed, h.retired, h.state⟩
    | operate event change =>
      have h' := h.change (Event.client_or_shutdown event) change
      exact .gone ⟨h'.place, hdown h'.closed, h'.retired, h'.state⟩
    | _ => cases h.place

/-- A worker that is launched is coupled to the present start. -/
theorem Coupled.launch (h : Coupled down snapshot s p) (idle : s.state = .idle) :
    Coupled down s.assignment s.launch p := by
  cases h with
  | executing h => exact absurd idle h.state_ne_idle
  | resting h => exact .resting ⟨h.place, h.present, rfl, fun _ => rfl, nofun⟩
  | gone h => exact absurd (idle.symm.trans h.state) nofun

/-! ## The invariants along a run -/

namespace Run

variable {ρ : Run} {n m : Nat}

/-- The slot and the thread of every worker agree after any number of events. -/
theorem coupled (ρ : Run) (i : Nat) : ∀ n s p, ρ.Has n i s p →
    Coupled (ρ.fleet n).registry.down (ρ.launched i n) s p := by
  refine worker_induction ?_ ?_
  · exact fun l => .resting ⟨Or.inl rfl, rfl, rfl, nofun, nofun⟩
  · intro n s p s' p' h h' he hc
    simp only [launched]
    split
    case isTrue hstart =>
      obtain ⟨rfl, rfl⟩ := launch_of_starts hstart h h'
      have hidle := (starts_iff.1 hstart).2 i s h.1
      have hheld : (ρ.fleet n).registry.held i = s.assignment := Registry.held_eq h.1
      have hdown : (ρ.fleet (n + 1)).registry.down = (ρ.fleet n).registry.down := by
        simp [fleet, Fleet.down_step, hstart.1]
      rw [hheld, hdown]
      exact hc.launch hidle
    case isFalse hstart => exact hc.effect he hstart

end Run

end CoreFleet
