import CoreFleet.Proofs.Fleet.Effect

/-!
# Runs of a fleet

A `Run` is a fleet of idle workers together with an endless sequence of events, in any
order. `Run.fleet n` is the fleet after the first `n` events ; between two events the
registry is free. A finite run is a run that goes on somehow, so that what holds at every
`n` holds in every state that can be reached.

`Starts`, `Enters` and `Reports` say what happens at an event : a start succeeds, a
thread passes the start gate with a snapshot of its assignment, a thread reports the end
of its run loop. `Executes` says that a thread is between the last two. `launched` is what
a worker held at the last start.

Properties of one worker are proved by `worker_induction` : they hold of an idle worker
with a waiting thread, and every `Effect` keeps them.
-/

namespace CoreFleet

/-- The fleet opens its start gate. -/
def Fleet.Opens (f : Fleet) (e : Event) : Prop :=
  e.operation? = some .start ∧ f.registry.start.answer = .ok ()

instance (f : Fleet) (e : Event) : Decidable (f.Opens e) := inferInstanceAs (Decidable (_ ∧ _))

/-- A fleet of idle workers, and what happens to it. -/
structure Run where
  tuning : Tuning
  lcores : List Lcore
  schedule : Nat → Event

namespace Run

/-- The fleet after `n` events. -/
def fleet (ρ : Run) : Nat → Fleet
  | 0 => .ofLcores ρ.tuning ρ.lcores
  | n + 1 => (ρ.fleet n).step (ρ.schedule n)

/-- The run through these events, after which nothing happens any more. -/
def ofEvents (lcores : List Lcore) (events : List Event) : Run where
  tuning := {}
  lcores
  schedule n := events[n]?.getD (.operate .snapshot rfl)

/-- The slot of the worker at `i` after `n` events. -/
def slot? (ρ : Run) (n i : Nat) : Option Slot := (ρ.fleet n).registry.slots[i]?

/-- Where the thread of the worker at `i` stands after `n` events. -/
def phase? (ρ : Run) (n i : Nat) : Option Phase := (ρ.fleet n).phases[i]?

/-- The operation that event `n` consists in. -/
def op? (ρ : Run) (n : Nat) : Option Operation := (ρ.schedule n).operation?

/-! ## What happens at an event -/

/-- Event `n` is a start that succeeds. -/
def Starts (ρ : Run) (n : Nat) : Prop := (ρ.fleet n).Opens (ρ.schedule n)

/-- At event `n` the thread of the worker at `i` passes the gate with this snapshot. -/
def Enters (ρ : Run) (n i : Nat) (snapshot : Option Assignment) : Prop :=
  ρ.phase? n i = some .waiting ∧ ρ.phase? (n + 1) i = some (.entering snapshot)

/-- At event `n` the thread of the worker at `i` reports the end of its run loop. -/
def Reports (ρ : Run) (n i : Nat) (failure : Option String) : Prop :=
  ρ.phase? n i = some (.finishing failure) ∧ ρ.phase? (n + 1) i = some .waiting

/-- Event `n` asks the worker at `i` to stop. -/
def AsksToStop (ρ : Run) (n i : Nat) : Prop :=
  ∃ op, ρ.op? n = some op ∧ op.asksToStop (ρ.fleet n).registry i = true

/-- After `n` events the worker at `i` executes this snapshot, with which its thread passed
the gate at event `m` : the end of the run loop has not been reported. -/
def Executes (ρ : Run) (i m n : Nat) (snapshot : Option Assignment) : Prop :=
  m < n ∧ ρ.Enters m i snapshot ∧ ∀ t failure, m < t → t < n → ¬ρ.Reports t i failure

instance (ρ : Run) (n : Nat) : Decidable (ρ.Starts n) :=
  inferInstanceAs (Decidable (Fleet.Opens ..))

/-- What the worker at `i` held at the last start among the first `n` events. -/
def launched (ρ : Run) (i : Nat) : Nat → Option Assignment
  | 0 => none
  | n + 1 => if ρ.Starts n then (ρ.fleet n).registry.held i else ρ.launched i n

variable {ρ : Run} {n m i : Nat} {s s' : Slot} {p p' : Phase} {snapshot : Option Assignment}

/-! ## One worker -/

/-- After `n` events the worker at `i` has this slot, and its thread stands here. -/
def Has (ρ : Run) (n i : Nat) (s : Slot) (p : Phase) : Prop :=
  ρ.slot? n i = some s ∧ ρ.phase? n i = some p

theorem length_fleet (ρ : Run) (n : Nat) : (ρ.fleet n).registry.slots.length = ρ.lcores.length ∧
    (ρ.fleet n).phases.length = ρ.lcores.length := by
  induction n with
  | zero => simp [fleet, Fleet.ofLcores, Registry.ofLcores]
  | succ n ih =>
    have hstep := Fleet.length_step (ρ.fleet n) (ρ.schedule n)
    exact ⟨hstep.1.trans ih.1, hstep.2.trans ih.2⟩

theorem exists_has (hi : i < ρ.lcores.length) (n : Nat) : ∃ s p, ρ.Has n i s p := by
  have hlength := ρ.length_fleet n
  exact ⟨_, _, List.getElem?_eq_getElem (hlength.1 ▸ hi), List.getElem?_eq_getElem (hlength.2 ▸ hi)⟩

theorem has_of_slot? (hs : ρ.slot? n i = some s) : ∃ p, ρ.Has n i s p := by
  have hi := (List.getElem?_eq_some_iff.1 hs).1
  obtain ⟨s', p, hs', hp⟩ := exists_has ((ρ.length_fleet n).1 ▸ hi) n
  exact ⟨p, hs, hp⟩

theorem has_of_phase? (hp : ρ.phase? n i = some p) : ∃ s, ρ.Has n i s p := by
  have hi := (List.getElem?_eq_some_iff.1 hp).1
  obtain ⟨s, p', hs, hp'⟩ := exists_has ((ρ.length_fleet n).2 ▸ hi) n
  exact ⟨s, hs, hp⟩

theorem Has.unique (h : ρ.Has n i s p) (h' : ρ.Has n i s' p') : s = s' ∧ p = p' :=
  ⟨Option.some.inj (h.1.symm.trans h'.1), Option.some.inj (h.2.symm.trans h'.2)⟩

theorem Has.zero (h : ρ.Has 0 i s p) : (∃ l, s = .fresh l) ∧ p = .waiting := by
  obtain ⟨l, -, hl⟩ := List.mem_map.1 (List.mem_of_getElem? h.1)
  obtain ⟨_, -, hp⟩ := List.mem_map.1 (List.mem_of_getElem? h.2)
  exact ⟨⟨l, hl.symm⟩, hp.symm⟩

theorem Has.effect (h : ρ.Has n i s p) (h' : ρ.Has (n + 1) i s' p') :
    (ρ.fleet n).Effect i (ρ.schedule n) s p s' p' := by
  obtain ⟨t, q, ht, hq, heffect⟩ := Fleet.exists_effect (ρ.schedule n) h.1 h.2
  obtain ⟨rfl, rfl⟩ := Has.unique (ρ := ρ) (n := n + 1) ⟨ht, hq⟩ h'
  exact heffect

theorem Has.pred (h : ρ.Has (n + 1) i s' p') : ∃ s p, ρ.Has n i s p := by
  have hi := (List.getElem?_eq_some_iff.1 h.1).1
  exact exists_has ((ρ.length_fleet (n + 1)).1 ▸ hi) n

theorem Has.succ (h : ρ.Has n i s p) : ∃ s' p', ρ.Has (n + 1) i s' p' := by
  have hi := (List.getElem?_eq_some_iff.1 h.1).1
  exact exists_has ((ρ.length_fleet n).1 ▸ hi) (n + 1)

/-- What holds of an idle worker with a waiting thread and is kept by every effect of an
event, holds of the worker throughout the run. -/
theorem worker_induction {motive : Nat → Slot → Phase → Prop}
    (zero : ∀ l, motive 0 (.fresh l) .waiting)
    (succ : ∀ n s p s' p', ρ.Has n i s p → ρ.Has (n + 1) i s' p' →
      (ρ.fleet n).Effect i (ρ.schedule n) s p s' p' → motive n s p → motive (n + 1) s' p') :
    ∀ n s p, ρ.Has n i s p → motive n s p
  | 0, s, p, h => by
    obtain ⟨⟨l, rfl⟩, rfl⟩ := h.zero
    exact zero l
  | n + 1, s', p', h' => by
    obtain ⟨s, p, h⟩ := h'.pred
    exact succ n s p s' p' h h' (h.effect h') (worker_induction zero succ n s p h)

/-! ## Starts -/

/-- A start succeeds if and only if every worker is idle. -/
theorem starts_iff :
    ρ.Starts n ↔ ρ.op? n = some .start ∧ ∀ i s, ρ.slot? n i = some s → s.state = .idle := by
  refine and_congr Iff.rfl (Registry.start_answer_eq_ok_iff.trans ?_)
  constructor
  · exact fun h i s hs => h s (List.mem_of_getElem? hs)
  · intro h s hs
    obtain ⟨i, hi⟩ := List.mem_iff_getElem?.1 hs
    exact h i s hi

/-- What is not a start that succeeds is no start, or is refused. -/
theorem refused_of_not_starts {op : Operation} (event : ρ.op? n = some op)
    (hstart : ¬ρ.Starts n) : op = .start → (ρ.fleet n).registry.start.answer ≠ .ok () :=
  fun hop hok => hstart ⟨event.trans (congrArg some hop), hok⟩

/-- A worker is past the gate right after a start. -/
theorem launch_of_starts (hstart : ρ.Starts n) (h : ρ.Has n i s p) (h' : ρ.Has (n + 1) i s' p') :
    s' = s.launch ∧ p' = p := by
  cases h.effect h' with
  | operate event change =>
    obtain rfl := Option.some.inj (hstart.1.symm.trans event)
    cases change with
    | launch => exact ⟨rfl, rfl⟩
    | keep hkeep => exact absurd hstart.2 (hkeep rfl)
    | assign gives => simp [Operation.gives] at gives
    | release clears => simp [Operation.clears] at clears
  | rest quiet => simp [hstart.1] at quiet
  | _ event => simp [event, Fleet.Opens, Event.operation?, Starts] at hstart

/-! ## The shutdown -/

/-- The registry is marked as shut down if and only if a shutdown has happened. -/
theorem down_iff : (ρ.fleet n).registry.down = true ↔ ∃ m, m < n ∧ ρ.op? m = some .shutdown := by
  induction n with
  | zero => simp [fleet, Fleet.ofLcores, Registry.ofLcores]
  | succ n ih =>
    simp only [fleet, Fleet.down_step, Bool.or_eq_true, ih, decide_eq_true_eq]
    constructor
    · rintro (⟨m, hm, h⟩ | h)
      · exact ⟨m, by omega, h⟩
      · exact ⟨n, by omega, h⟩
    · rintro ⟨m, hm, h⟩
      rcases Nat.lt_succ_iff_lt_or_eq.1 hm with hlt | rfl
      · exact Or.inl ⟨m, hlt, h⟩
      · exact Or.inr h

/-! ## A short run -/

/-- A block. -/
def rx : Block := ⟨7, "rx"⟩

/-- Another block. -/
def tx : Block := ⟨8, "tx"⟩

/-- Two workers are started with a block each and lose them. The second one ends its loop,
and is given the block of the first one, whose loop still runs it. When both are idle again
they are started and stopped at once, before a thread wakes up. -/
def handover : Run := .ofEvents [.worker 1, .worker 2] [
  .operate (.assignBlock 1 rx) rfl, .operate (.assignBlock 2 tx) rfl, .operate .start rfl,
  .move 0 .look, .move 1 .look, .move 0 (.enter 0), .move 0 .poll, .move 1 (.enter 0),
  .operate (.clearBlock rx) rfl, .operate (.clearBlock tx) rfl,
  .move 1 .poll, .move 1 .report, .operate (.assignBlock 2 rx) rfl,
  .move 0 (.back .ok 0), .move 0 .poll, .move 0 .report,
  .operate .start rfl, .operate .stop rfl, .move 1 .look]

end Run

end CoreFleet
