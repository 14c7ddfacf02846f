import CoreFleet.Proofs.Registry.Change
import Mathlib.Data.Fintype.Basic
import Mathlib.Data.Fintype.Card
import Mathlib.Data.List.FinRange

/-!
# Start and stop, worker by worker

A start goes through all workers twice : it looks for one that is not idle, and launches all of
them if there is none. The first worker that is not idle decides (`start_of_firstBusy`), so that a
start that is refused has launched nobody. A stop asks the running workers to stop and leaves every
other one alone. `getElem?_start` and `getElem?_stop` say what becomes of each worker.
-/

namespace CoreFleet.Registry

variable {r : Registry} {i : Nat} {s : Slot}

/-! ## Start -/

/-- The worker at `i` is the first one that is not idle, and has this slot. -/
structure FirstBusy (r : Registry) (i : Nat) (s : Slot) : Prop where
  here : r.slots[i]? = some s
  busy : s.state ≠ .idle
  first : ∀ j t, j < i → r.slots[j]? = some t → t.state = .idle

theorem exists_firstBusy (h : ¬∀ t ∈ r.slots, t.state = .idle) : ∃ i s, r.FirstBusy i s := by
  cases hfind : r.slots.find? (·.state ≠ .idle) with
  | none => exact absurd (by simpa using hfind) h
  | some s =>
    obtain ⟨hbusy, i, hi, hs, hfirst⟩ := List.find?_eq_some_iff_getElem.1 hfind
    refine ⟨i, s, List.getElem?_eq_some_iff.2 ⟨hi, hs⟩, by simpa using hbusy, fun j t hj ht => ?_⟩
    obtain ⟨-, rfl⟩ := List.getElem?_eq_some_iff.1 ht
    simpa using hfirst j hj

/-- A start is refused on account of the first worker that is not idle, and changes nothing. -/
theorem start_of_firstBusy (h : r.FirstBusy i s) :
    r.start = r.refuse (.notReady s.lcore.id s.state) := by
  obtain ⟨hi, hs⟩ := List.getElem?_eq_some_iff.1 h.here
  have hfind : r.slots.find? (·.state ≠ .idle) = some s := by
    refine List.find?_eq_some_iff_getElem.2 ⟨by simpa using h.busy, i, hi, hs, fun j hj => ?_⟩
    simpa using h.first j _ hj (List.getElem?_eq_getElem (Nat.lt_trans hj hi))
  unfold start
  rw [hfind]

/-- A start that is let through launches every worker. -/
theorem getElem?_start (h : ∀ t ∈ r.slots, t.state = .idle) (i : Nat) :
    r.start.after.slots[i]? = r.slots[i]?.map Slot.launch := by
  rcases r.start_cases with ⟨busy, hmem, hbusy, -⟩ | ⟨-, hstart⟩
  · exact absurd (h busy hmem) hbusy
  · rw [hstart, List.getElem?_map]

/-! ## Stop -/

/-- A stop asks a worker to stop if it is running. -/
theorem getElem?_stop (r : Registry) (i : Nat) :
    r.stop.after.slots[i]? = r.slots[i]?.map stopSlot := by
  rw [stop, List.getElem?_map]

/-- The elements of a list with some property are as many as their positions. -/
theorem countP_eq_card {α : Type} (l : List α) (p : α → Bool) :
    l.countP p = (Finset.univ.filter fun i : Fin l.length => p (l.get i)).card := by
  have hpositions : l = (List.finRange l.length).map l.get := (List.map_get_finRange l).symm
  rw [Finset.card_def, Finset.filter_val, Fin.univ_def, Multiset.filter_coe, Multiset.coe_card,
    ← List.countP_eq_length_filter]
  conv_lhs => rw [hpositions]
  rw [List.countP_map]
  refine List.countP_congr fun i _ => ?_
  simp

/-- A stop tells how many workers were running. -/
theorem stop_answer (r : Registry) : r.stop.answer =
    (Finset.univ.filter fun i : Fin r.slots.length => (r.slots.get i).state = .running).card := by
  rw [stop, countP_eq_card]
  simp only [decide_eq_true_eq]

end CoreFleet.Registry
