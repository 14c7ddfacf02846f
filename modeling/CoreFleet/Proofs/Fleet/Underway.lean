import CoreFleet.Fleet.Basic

/-!
# Threads at the gate and under way

Before the start the threads wait at a gate that is shut, and no step of theirs changes anything
(`turn?_shut`). After the start of a fleet whose units never fail they go round in their loops. A
step of a thread keeps such a fleet under way, with the same registry (`Underway.turn?`).
-/

namespace CoreFleet

namespace Registry

/-- No worker was started, and the gate is not closed for good. -/
structure Shut (r : Registry) : Prop where
  up : r.down = false
  idle : ∀ s ∈ r.slots, s.state = .idle

/-- All workers run, and none of them runs a pipeline. -/
structure Running (r : Registry) : Prop where
  up : r.down = false
  running : ∀ s ∈ r.slots, s.state = .running ∧ s.flag = true
  plain : ∀ s ∈ r.slots, ∀ ref, s.assignment ≠ some (.pipeline ref)

end Registry

/-- The thread waits, or is in a run loop that goes on, or about to begin one. -/
inductive Phase.Steady : Phase → Prop
  | waiting : Steady .waiting
  | entering {a : Option Assignment} : (∀ ref, a ≠ some (.pipeline ref)) → Steady (.entering a)
  | looping {loop : Loop} {point : Point} : Steady (.looping loop point)

namespace Fleet

variable {f f' : Fleet} {i now : Nat} {outcome : Outcome}

/-- The workers run, and their threads are steady. -/
structure Underway (f : Fleet) : Prop where
  registry : f.registry.Running
  length : f.phases.length = f.registry.slots.length
  steady : ∀ p ∈ f.phases, p.Steady

/-- A thread that waits at a shut gate changes nothing. -/
theorem turn?_shut (hshut : f.registry.Shut) (hwaiting : ∀ p ∈ f.phases, p = .waiting)
    (h : f.turn? i outcome now = some f') : f' = f := by
  obtain ⟨m, hm, hmove⟩ := Option.bind_eq_some_iff.1 h
  obtain ⟨p, hp, hnext⟩ := Option.bind_eq_some_iff.1 hm
  obtain rfl := hwaiting p (List.mem_of_getElem? hp)
  obtain rfl : .look = m := Option.some.inj hnext
  have hawaken : f.registry.awaken i = f.registry.answer .wait := by
    unfold Registry.awaken
    rw [hshut.up]
    cases hs : f.registry.slots[i]? with
    | none => rfl
    | some s => simp [hshut.idle s (List.mem_of_getElem? hs)]
  simp only [move, hp, hawaken, Registry.answer, afterLook, Option.some.injEq] at hmove
  obtain ⟨hlt, hget⟩ := List.getElem?_eq_some_iff.1 hp
  rw [← hmove, ← hget, List.set_getElem_self]

/-- The thread of a worker under way goes on, and the registry stays as it is. -/
theorem Underway.turn? (hf : f.Underway) (h : f.turn? i .ok now = some f') :
    f'.Underway ∧ f'.registry = f.registry := by
  obtain ⟨m, hm, hmove⟩ := Option.bind_eq_some_iff.1 h
  obtain ⟨p, hp, hnext⟩ := Option.bind_eq_some_iff.1 hm
  obtain ⟨hlt, -⟩ := List.getElem?_eq_some_iff.1 hp
  have hset {q : Phase} (hq : q.Steady) (hf' : f' = f.setPhase i q) :
      f'.Underway ∧ f'.registry = f.registry := by
    subst hf'
    refine ⟨⟨hf.registry, ?_, fun p hp => ?_⟩, rfl⟩
    · simpa [setPhase] using hf.length
    · rcases List.mem_or_eq_of_mem_set hp with hp | rfl
      · exact hf.steady p hp
      · exact hq
  obtain ⟨s, hs⟩ : ∃ s, f.registry.slots[i]? = some s :=
    ⟨_, List.getElem?_eq_getElem (hf.length ▸ hlt)⟩
  have hmem := List.mem_of_getElem? hs
  obtain ⟨hstate, hflag⟩ := hf.registry.running s hmem
  cases hf.steady p (List.mem_of_getElem? hp) with
  | waiting =>
    obtain rfl := Option.some.inj hnext
    have hawaken : f.registry.awaken i = f.registry.answer (.go s.assignment) := by
      simp [Registry.awaken, hf.registry.up, hs, hstate]
    simp only [move, hp, hawaken, Registry.answer, afterLook, Option.some.injEq] at hmove
    exact hset (.entering (hf.registry.plain s hmem)) hmove.symm
  | @entering a ha =>
    obtain rfl := Option.some.inj hnext
    simp only [move, hp, Option.some.injEq] at hmove
    refine hset ?_ hmove.symm
    match a with
    | none => exact .looping
    | some (.block b) => exact .looping
    | some (.pipeline ref) => exact absurd rfl (ha ref)
  | @looping loop point =>
    cases point with
    | check =>
      obtain rfl := Option.some.inj hnext
      have hpoll : loop.poll (f.flagAt i) = .looping loop .call := by
        simp [Loop.poll, flagAt, hs, hflag]
      simp only [move, hp, hpoll, Option.some.injEq] at hmove
      exact hset .looping hmove.symm
    | call =>
      obtain rfl := Option.some.inj hnext
      simp only [move, hp, Option.some.injEq] at hmove
      refine hset ?_ hmove.symm
      cases loop <;> exact .looping
    | timer reading =>
      obtain rfl := Option.some.inj hnext
      simp only [move, hp, Option.some.injEq] at hmove
      refine hset ?_ hmove.symm
      cases loop <;> exact .looping

end Fleet

end CoreFleet
