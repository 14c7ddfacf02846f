import CoreFleet.Proofs.Registry.Change

/-!
# Units are held once

No operation gives a unit away that a worker holds, so that no unit is held by two workers
(`Registry.Exclusive`). The check an operation makes is enough for this since operations
run one at a time (`exclusive_perform`).
-/

namespace CoreFleet

/-- No unit is in two places. -/
def Unshared (units : Nat → Option Assignment) : Prop :=
  ∀ i j a b, units i = some a → units j = some b → a.key = b.key → i = j

theorem unshared_none : Unshared fun _ => none := nofun

namespace Registry

variable {r : Registry} {i : Nat} {s s' : Slot} {op : Operation}

/-- What the worker at a position holds. -/
def held (r : Registry) (i : Nat) : Option Assignment := r.slots[i]?.bind (·.assignment)

/-- No unit is held by two workers. -/
def Exclusive (r : Registry) : Prop := Unshared r.held

theorem held_eq (h : r.slots[i]? = some s) : r.held i = s.assignment := by simp [held, h]

/-- A worker that holds a unit has a slot with it. -/
theorem held_eq_some_iff {a : Assignment} :
    r.held i = some a ↔ ∃ s, r.slots[i]? = some s ∧ s.assignment = some a :=
  Option.bind_eq_some_iff

theorem exclusive_ofLcores (lcores : List Lcore) : (ofLcores lcores).Exclusive := by
  intro i j a b hi
  obtain ⟨s, hs, ha⟩ := held_eq_some_iff.1 hi
  obtain ⟨l, -, rfl⟩ := List.mem_map.1 (List.mem_of_getElem? hs)
  simp [Slot.fresh] at ha

@[simp] theorem release_assignment (s : Slot) : s.release.assignment = none := by
  rcases s.release_cases with ⟨-, h⟩ | ⟨-, h⟩ | ⟨-, -, h⟩ <;> rw [h]

@[simp] theorem finish_assignment (s : Slot) (failure : Option String) :
    (s.finish failure).assignment = s.assignment := by
  unfold Slot.finish
  cases failure with
  | none => rfl
  | some reason => dsimp only; split <;> rfl

@[simp] theorem stopSlot_assignment (s : Slot) : (stopSlot s).assignment = s.assignment := by
  unfold stopSlot
  split <;> rfl

/-- A slot keeps its unit, loses it, or is given one that nobody holds. -/
theorem Change.assignment_cases (h : Change r i s op s') :
    s'.assignment = s.assignment ∨ s'.assignment = none ∨
      ∃ id a, op.gives = some (id, a) ∧ r.index? id = some i ∧ s'.assignment = some a ∧
        ∀ t ∈ r.slots, ∀ b, t.assignment = some b → b.key ≠ a.key := by
  cases h with
  | assign gives named _ _ free => exact Or.inr (Or.inr ⟨_, _, gives, named, rfl, free⟩)
  | release => exact Or.inr (Or.inl (release_assignment s))
  | finish failure => exact Or.inl (finish_assignment s failure)
  | stop => exact Or.inl (stopSlot_assignment s)
  | keep | recover | launch | retire | shutdown => exact Or.inl rfl

/-- What a worker holds after an operation, it held before, or the operation gave it. -/
theorem held_perform {a : Assignment} (h : (op.perform r).after.held i = some a) :
    r.held i = some a ∨ ∃ id, op.gives = some (id, a) ∧ r.index? id = some i ∧
      ∀ j b, r.held j = some b → b.key ≠ a.key := by
  obtain ⟨s', hs', ha⟩ := held_eq_some_iff.1 h
  have hlt : i < r.slots.length := by
    rw [← length_perform op r]
    exact (List.getElem?_eq_some_iff.1 hs').1
  obtain ⟨s'', hs'', hchange⟩ := change_perform op (List.getElem?_eq_getElem hlt)
  obtain rfl : s'' = s' := by simpa [hs''] using hs'
  rcases hchange.assignment_cases with hkeep | hnone | ⟨id, a', hgives, hnamed, ha', hfree⟩
  · exact Or.inl (held_eq_some_iff.2 ⟨_, List.getElem?_eq_getElem hlt, hkeep ▸ ha⟩)
  · simp [hnone] at ha
  · obtain rfl : a' = a := by simpa [ha'] using ha
    refine Or.inr ⟨id, hgives, hnamed, fun j b hj => ?_⟩
    obtain ⟨t, ht, hb⟩ := held_eq_some_iff.1 hj
    exact hfree t (List.mem_of_getElem? ht) b hb

/-- No operation makes two workers hold one unit. -/
theorem exclusive_perform (h : r.Exclusive) (op : Operation) :
    (op.perform r).after.Exclusive := by
  intro i j a b hi hj hab
  rcases held_perform hi with hi | ⟨id, hgives, hnamed, hfree⟩
  · rcases held_perform hj with hj | ⟨_, _, _, hfree⟩
    · exact h i j a b hi hj hab
    · exact absurd hab (hfree i a hi)
  · rcases held_perform hj with hj | ⟨id', hgives', hnamed', -⟩
    · exact absurd hab.symm (hfree j b hj)
    · obtain ⟨rfl, rfl⟩ : id = id' ∧ a = b := by simpa [hgives] using hgives'
      simpa [hnamed] using hnamed'

/-- A look at the registry takes and gives no unit. -/
theorem held_awaken (r : Registry) (k : Nat) : (r.awaken k).after.held = r.held := by
  funext i
  cases hk : r.slots[k]? with
  | none => cases hdown : r.down <;> simp [awaken, hdown, hk, answer]
  | some s =>
    rcases awaken_cases hk with ⟨-, ha⟩ | ⟨-, -, ha⟩ | ⟨-, -, ha⟩ | ⟨-, -, ha⟩ <;> rw [ha]
    case inr.inr.inl =>
      simp only [held, getElem?_update]
      cases r.slots[i]? with
      | none => rfl
      | some t => by_cases hki : k = i <;> simp [hki]
    all_goals rfl

end Registry

end CoreFleet
