import CoreFleet.Fleet.Basic
import CoreFleet.Proofs.Registry.Holding

/-!
# What an event does to one worker

An `Event` is whatever may happen to a fleet : an operation of a client, the shutdown, a
move of a worker's thread, or the owner of a pipeline letting go of it. An event that
cannot happen, such as a move of a thread that stands elsewhere, leaves the fleet as it is
(`Fleet.step`), so that every sequence of events is a run.

`Effect f i e s p s' p'` lists what `e` makes of the slot `s` and the thread at `p` of the
worker at `i`, each time with what must have held for it, and `exists_effect` says that an
event does nothing else. An operation changes no thread's position, and a thread changes no
slot but its own.
-/

namespace CoreFleet

/-- What may happen to a fleet. -/
inductive Event
  /-- Somebody who holds the registry runs an operation. -/
  | operate (op : Operation) (client : op.isClient = true)
  | shutdown
  /-- The thread of the worker at `i` makes a step. -/
  | move (i : Nat) (m : Move)
  /-- The owner of a pipeline lets go of it. -/
  | release (u : UnitId)

/-- The operation that an event consists in. -/
def Event.operation? : Event → Option Operation
  | operate op _ => some op
  | shutdown => some .shutdown
  | _ => none

theorem Event.client_or_shutdown {e : Event} {op : Operation} (h : e.operation? = some op) :
    op.isClient = true ∨ op = .shutdown := by
  cases e with
  | operate _ client => exact Or.inl (Option.some.inj h ▸ client)
  | shutdown => exact Or.inr (Option.some.inj h).symm
  | move | release => simp [operation?] at h

namespace Fleet

/-- The fleet after an event. -/
def step (f : Fleet) : Event → Fleet
  | .operate op _ => f.operate op
  | .shutdown => f.operate .shutdown
  | .move i m => (f.move i m).getD f
  | .release u => f.release u

/-- What an event makes of the slot and the thread of the worker at a position. -/
inductive Effect (f : Fleet) (i : Nat) (e : Event) (s : Slot) : Phase → Slot → Phase → Prop
  /-- The event cannot happen, or is about other workers. -/
  | rest {p : Phase} (quiet : e.operation? = none) : Effect f i e s p s p
  | operate {op : Operation} {p : Phase} {s' : Slot} (event : e.operation? = some op)
    (change : f.registry.Change i s op s') : Effect f i e s p s' p
  | close (event : e = .move i .look) (down : f.registry.down = true) :
    Effect f i e s .waiting s .leaving
  | pass (event : e = .move i .look) (running : s.state = .running) :
    Effect f i e s .waiting s (.entering s.assignment)
  | settle (event : e = .move i .look) (stopping : s.state = .stopping) :
    Effect f i e s .waiting { s with state := .idle } .waiting
  | enter {snapshot : Option Assignment} {now : Nat} (event : e = .move i (.enter now)) :
    Effect f i e s (.entering snapshot) s (Loop.enter f.tuning f.alive now snapshot)
  | poll {loop : Loop} (event : e = .move i .poll) :
    Effect f i e s (.looping loop .check) s (loop.poll s.flag)
  | called {loop : Loop} {outcome : Outcome} {now : Nat}
    (event : e = .move i (.back outcome now)) :
    Effect f i e s (.looping loop .call) s (loop.afterCall outcome now)
  | timed {loop : Loop} {reading now : Nat} {outcome : Outcome}
    (event : e = .move i (.back outcome now)) :
    Effect f i e s (.looping loop (.timer reading)) s (loop.afterTimer outcome reading)
  | report {failure : Option String} (event : e = .move i .report) :
    Effect f i e s (.finishing failure) (s.finish failure) .waiting
  | exit (event : e = .move i .exit) : Effect f i e s .leaving s.retire .exited

variable {f g : Fleet} {i k : Nat} {s : Slot} {p : Phase} {e : Event} {m : Move}

/-- A look changes at most the slot of the worker whose thread looks. -/
theorem awaken_after (r : Registry) (k : Nat) :
    (r.awaken k).after = r ∨ ∃ change, (r.awaken k).after = r.update k change := by
  unfold Registry.awaken
  repeat' split
  all_goals first | exact Or.inl rfl | exact Or.inr ⟨_, rfl⟩

/-- A move sets the position of its own thread, and changes at most its own slot. -/
theorem move_shape (hm : f.move k m = some g) : (∃ q, g.phases = f.phases.set k q) ∧
    (g.registry = f.registry ∨ ∃ change, g.registry = f.registry.update k change) := by
  unfold move at hm
  split at hm
  case h_8 => simp at hm
  all_goals obtain rfl := Option.some.inj hm
  case h_1 => exact ⟨⟨_, rfl⟩, awaken_after ..⟩
  case h_6 | h_7 => exact ⟨⟨_, rfl⟩, Or.inr ⟨_, rfl⟩⟩
  all_goals exact ⟨⟨_, rfl⟩, Or.inl rfl⟩

/-- A move of a thread leaves every other worker alone. -/
theorem getElem?_move_ne (hm : f.move k m = some g) (hki : k ≠ i) :
    g.registry.slots[i]? = f.registry.slots[i]? ∧ g.phases[i]? = f.phases[i]? := by
  obtain ⟨⟨q, hphases⟩, hregistry⟩ := move_shape hm
  refine ⟨?_, by rw [hphases, List.getElem?_set_ne hki]⟩
  rcases hregistry with hsame | ⟨change, hchange⟩
  · rw [hsame]
  · rw [hchange, Registry.getElem?_update]
    cases f.registry.slots[i]? <;> simp [hki]

/-- What a thread's move makes of its worker. -/
theorem exists_effect_move (hm : f.move i m = some g) (hs : f.registry.slots[i]? = some s)
    (hp : f.phases[i]? = some p) :
    ∃ s' p', g.registry.slots[i]? = some s' ∧ g.phases[i]? = some p' ∧
      Effect f i (.move i m) s p s' p' := by
  have hset : ∀ q, (f.phases.set i q)[i]? = some q := fun q =>
    List.getElem?_set_self (List.getElem?_eq_some_iff.1 hp).1
  unfold move at hm
  rw [hp] at hm
  split at hm <;> rename_i heq
  case h_8 => simp at hm
  all_goals
    obtain rfl := Option.some.inj hm
    obtain rfl := Option.some.inj heq
  case h_1 =>
    rcases Registry.awaken_cases hs with ⟨hdown, ha⟩ | ⟨-, hstate, ha⟩ | ⟨-, hstate, ha⟩ |
      ⟨-, -, ha⟩
    · exact ⟨s, .leaving, by simpa [ha, Registry.answer] using hs, by simp [ha, hset, afterLook,
        Registry.answer], .close rfl hdown⟩
    · exact ⟨s, _, by simpa [ha, Registry.answer] using hs, by simp [ha, hset, afterLook,
        Registry.answer], .pass rfl hstate⟩
    · exact ⟨_, .waiting, by simp [ha, Registry.getElem?_update, hs], by simp [ha, hset,
        afterLook], .settle rfl hstate⟩
    · exact ⟨s, .waiting, by simpa [ha, Registry.answer] using hs, by simp [ha, hset, afterLook,
        Registry.answer], .rest rfl⟩
  case h_2 => exact ⟨s, _, hs, hset _, .enter rfl⟩
  case h_3 =>
    refine ⟨s, _, hs, hset _, ?_⟩
    rw [show f.flagAt i = s.flag by simp [flagAt, hs]]
    exact .poll rfl
  case h_4 => exact ⟨s, _, hs, hset _, .called rfl⟩
  case h_5 => exact ⟨s, _, hs, hset _, .timed rfl⟩
  case h_6 =>
    exact ⟨_, _, by simp [Registry.finish, Registry.getElem?_update, hs], hset _, .report rfl⟩
  case h_7 =>
    exact ⟨_, _, by simp [Registry.retire, Registry.getElem?_update, hs], hset _, .exit rfl⟩

/-- An event does to a worker one of the things in `Effect`. -/
theorem exists_effect (e : Event) (hs : f.registry.slots[i]? = some s)
    (hp : f.phases[i]? = some p) :
    ∃ s' p', (f.step e).registry.slots[i]? = some s' ∧ (f.step e).phases[i]? = some p' ∧
      Effect f i e s p s' p' := by
  cases e with
  | operate op client =>
    obtain ⟨s', hs', hchange⟩ := Registry.change_perform op hs
    exact ⟨s', p, hs', hp, .operate rfl hchange⟩
  | shutdown =>
    obtain ⟨s', hs', hchange⟩ := Registry.change_perform .shutdown hs
    exact ⟨s', p, hs', hp, .operate rfl hchange⟩
  | release u => exact ⟨s, p, hs, hp, .rest rfl⟩
  | move k m =>
    cases hm : f.move k m with
    | none => exact ⟨s, p, by simpa [step, hm] using hs, by simpa [step, hm] using hp, .rest rfl⟩
    | some g =>
      simp only [step, hm, Option.getD_some]
      by_cases hki : k = i
      · subst hki
        exact exists_effect_move hm hs hp
      · obtain ⟨hslots, hphases⟩ := getElem?_move_ne hm hki
        exact ⟨s, p, hslots ▸ hs, hphases ▸ hp, .rest rfl⟩

/-- A thread that waits after an event has waited before, or its worker has just come out
of a stop or an execution. -/
theorem Effect.of_waiting {s' : Slot} {p' : Phase} (he : Effect f i e s p s' p')
    (hp : p' = .waiting) :
    p = .waiting ∧ (e.operation? = none ∧ s' = s ∨
      ∃ op, e.operation? = some op ∧ f.registry.Change i s op s') ∨
    s'.state = .idle ∨ s'.state = .error := by
  cases he with
  | rest quiet => exact Or.inl ⟨hp, Or.inl ⟨quiet, rfl⟩⟩
  | operate event change => exact Or.inl ⟨hp, Or.inr ⟨_, event, change⟩⟩
  | settle => exact Or.inr (Or.inl rfl)
  | report => exact Or.inr (Registry.finish_state s _)
  | close | pass | exit => cases hp
  | enter =>
    unfold Loop.enter at hp
    repeat' split at hp
    all_goals cases hp
  | poll =>
    unfold Loop.poll at hp
    split at hp <;> cases hp
  | called =>
    unfold Loop.afterCall at hp
    repeat' split at hp
    all_goals cases hp
  | timed =>
    unfold Loop.afterTimer at hp
    repeat' split at hp
    all_goals cases hp

/-- No event moves a worker to another core. -/
theorem Effect.lcore_eq {s' : Slot} {p' : Phase} (he : Effect f i e s p s' p') :
    s'.lcore = s.lcore := by
  cases he with
  | operate _ change => exact change.lcore_eq
  | report => exact Registry.finish_lcore ..
  | _ => rfl

/-! ## What an event does to the fleet as a whole -/

theorem length_step (f : Fleet) (e : Event) :
    (f.step e).registry.slots.length = f.registry.slots.length ∧
      (f.step e).phases.length = f.phases.length := by
  cases e with
  | operate op _ => exact ⟨Registry.length_perform op _, rfl⟩
  | shutdown => exact ⟨Registry.length_perform .shutdown _, rfl⟩
  | release u => exact ⟨rfl, rfl⟩
  | move k m =>
    cases hm : f.move k m with
    | none => simp [step, hm]
    | some g =>
      obtain ⟨⟨q, hphases⟩, hsame | ⟨change, hchange⟩⟩ := move_shape hm
      · simp [step, hm, hphases, hsame]
      · simp [step, hm, hphases, hchange, Registry.length_update]

/-- Only the shutdown sets the mark of a shutdown. -/
theorem down_step (f : Fleet) (e : Event) :
    (f.step e).registry.down = (f.registry.down || decide (e.operation? = some .shutdown)) := by
  cases e with
  | operate op _ =>
    simpa [step, operate, Event.operation?] using Registry.down_perform op f.registry
  | shutdown =>
    simpa [step, operate, Event.operation?] using Registry.down_perform .shutdown f.registry
  | release u => simp [step, release, Event.operation?]
  | move k m =>
    cases hm : f.move k m with
    | none => simp [step, hm, Event.operation?]
    | some g =>
      obtain ⟨-, hsame | ⟨change, hchange⟩⟩ := move_shape hm
      · simp [step, hm, hsame, Event.operation?]
      · simp [step, hm, hchange, Registry.update, Event.operation?]

/-- No event makes two workers hold one unit. -/
theorem exclusive_step (h : f.registry.Exclusive) (e : Event) : (f.step e).registry.Exclusive := by
  cases e with
  | operate op _ => exact Registry.exclusive_perform h op
  | shutdown => exact Registry.exclusive_perform h .shutdown
  | release u => exact h
  | move k m =>
    cases hm : f.move k m with
    | none => simpa [step, hm] using h
    | some g =>
      simp only [step, hm, Option.getD_some]
      unfold move at hm
      split at hm
      case h_8 => simp at hm
      all_goals obtain rfl := Option.some.inj hm
      case h_1 =>
        unfold Registry.Exclusive
        rw [Registry.held_awaken]
        exact h
      case h_6 => exact Registry.exclusive_perform h (.finish ..)
      case h_7 => exact Registry.exclusive_perform h (.retire ..)
      all_goals exact h

end Fleet

end CoreFleet
