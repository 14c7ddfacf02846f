import CoreFleet.Proofs.Registry.Refusal

/-!
# How an assignment is decided

An operation that gives a unit away makes three checks, and the first that fails decides : is there
a worker with the identifier, can it take a unit, is the unit free. `Decision` lists the four ways
this may end, each with what must have held and with the whole reply, and `decision_perform` says
that there is no other way. Pipelines and blocks differ in how they are compared, but are decided
alike.

Where identifiers are distinct, the four conditions exclude each other, so that each of them is also
enough for its reply (`assignment_decided`). A unit that has been given to an idle worker can be
taken back : the operation that clears it (`Operation.takesBack`) undoes the assignment and nothing
else.
-/

namespace CoreFleet

/-- The operation that clears the unit which an operation gives away. -/
def Operation.takesBack : Operation → Option Operation
  | assignPipeline id _ _ => some (.clearPipeline id)
  | assignBlock _ b => some (.clearBlock b)
  | _ => none

theorem Operation.names_of_gives {op : Operation} {id : Nat} {a : Assignment}
    (h : op.gives = some (id, a)) : op.names = some id := by
  cases op <;> simp only [gives, Option.some.injEq, Prod.mk.injEq, reduceCtorEq] at h
  all_goals exact congrArg some h.1

namespace Registry

variable {lcores : List Lcore} {r : Registry} {op clear : Operation} {id i j : Nat}
  {a : Assignment} {s t : Slot}

/-- The worker at a position has this slot and this identifier. -/
structure Named (r : Registry) (id i : Nat) (s : Slot) : Prop where
  here : r.slots[i]? = some s
  named : s.lcore.id = id

/-- A registry in which one worker has been given a unit, or has lost it. -/
def withAssignment (r : Registry) (i : Nat) (s : Slot) (a : Option Assignment) : Registry :=
  { r with slots := r.slots.set i { s with assignment := a } }

/-! ## The checks -/

/-- How an operation is decided that gives a unit to the worker with an identifier. -/
inductive Decision (r : Registry) (id : Nat) (a : Assignment) : Reply (Except Error Answer) → Prop
  | unknown (h : id ∉ r.ids) : Decision r id a (r.refuse (.unknownWorker id))
  | unfit {i : Nat} {s : Slot} (worker : r.Named id i s)
    (unfit : s.state ≠ .idle ∨ s.assignment ≠ none) :
    Decision r id a (r.refuse (.invalidState id s.state))
  | held {i j : Nat} {s t : Slot} (worker : r.Named id i s) (idle : s.state = .idle)
    (empty : s.assignment = none) (holder : r.slots[j]? = some t) (holds : r.Holds j a) :
    Decision r id a (r.refuse (.alreadyAssigned t.lcore.id a.describe))
  | given {i : Nat} {s : Slot} (worker : r.Named id i s) (idle : s.state = .idle)
    (empty : s.assignment = none) (free : ∀ j, ¬r.Holds j a) :
    Decision r id a ⟨.ok .done, r.withAssignment i s (some a), false⟩

theorem update_eq_set (h : r.slots[i]? = some s) (f : Slot → Slot) :
    r.update i f = { r with slots := r.slots.set i (f s) } := by
  obtain ⟨hi, rfl⟩ := List.getElem?_eq_some_iff.1 h
  rw [update]
  congr 1
  refine List.ext_getElem? fun k => ?_
  rw [List.getElem?_modify, List.getElem?_set]
  by_cases hik : i = k
  · subst hik
    simp [hi]
  · simp [hik]

/-- A lookup finds no worker, or one with the identifier. -/
theorem named_cases (r : Registry) (id : Nat) :
    id ∉ r.ids ∧ r.index? id = none ∧ r.slot? id = none ∨
      ∃ i s, r.Named id i s ∧ r.index? id = some i ∧ r.slot? id = some s := by
  rcases r.lookup_cases id with ⟨hi, hs⟩ | ⟨i, s, hi, hget, hs⟩
  · exact Or.inl ⟨index?_eq_none_iff.1 hi, hi, hs⟩
  · exact Or.inr ⟨i, s, ⟨hget, by simpa using List.find?_some hs⟩, hi, hs⟩

theorem decision_assign {held : Slot → Bool}
    (hheld : ∀ s, held s = true ↔ ∃ b, s.assignment = some b ∧ b.key = a.key) :
    r.Decision id a ((r.assign id a held).map fun x => x.map fun _ => .done) := by
  unfold assign
  rcases r.named_cases id with ⟨hid, hi, hs⟩ | ⟨i, s, hnamed, hi, hs⟩
  · simp only [hi, hs]
    exact .unknown hid
  · simp only [hi, hs]
    split
    case isFalse hunfit =>
      have hunfit : s.state ≠ .idle ∨ s.assignment ≠ none := by
        by_cases hidle : s.state = .idle
        · exact Or.inr fun hempty => hunfit (by simp [Slot.assignable, hidle, hempty])
        · exact Or.inl hidle
      rw [hnamed.named]
      exact .unfit hnamed hunfit
    case isTrue hfit =>
      obtain ⟨hidle, hempty⟩ : s.state = .idle ∧ s.assignment = none := by
        simpa [Slot.assignable] using hfit
      split
      case h_1 t hother =>
        obtain ⟨b, hb, hkey⟩ := (hheld t).1 (List.find?_some hother)
        obtain ⟨j, hj⟩ := List.mem_iff_getElem?.1 (List.mem_of_find?_eq_some hother)
        exact .held hnamed hidle hempty hj ⟨b, held_eq_some_iff.2 ⟨t, hj, hb⟩, hkey⟩
      case h_2 hnone =>
        rw [update_eq_set hnamed.here]
        refine .given hnamed hidle hempty fun j => ?_
        rintro ⟨b, hb, hkey⟩
        obtain ⟨t, ht, hb⟩ := held_eq_some_iff.1 hb
        exact List.find?_eq_none.1 hnone t (List.mem_of_getElem? ht) ((hheld t).2 ⟨b, hb, hkey⟩)

theorem holdsPipeline_iff {p : Pipeline} : s.holdsPipeline p = true ↔
    ∃ b, s.assignment = some b ∧ b.key = (true, p.id) := by
  simp only [Slot.holdsPipeline, Option.any_eq_true, Assignment.holdsPipeline_iff]

theorem holdsBlock_iff {b : Block} : s.holdsBlock b = true ↔
    ∃ c, s.assignment = some c ∧ c.key = (false, b.id) := by
  simp only [Slot.holdsBlock, Option.any_eq_true, Assignment.holdsBlock_iff]

/-- Every operation that gives a unit away is decided in one of the four ways. -/
theorem decision_perform (hop : op.gives = some (id, a)) : r.Decision id a (op.perform r) := by
  cases op <;> simp only [Operation.gives, Option.some.injEq, Prod.mk.injEq, reduceCtorEq] at hop
  case assignPipeline =>
    obtain ⟨rfl, rfl⟩ := hop
    exact decision_assign fun s => holdsPipeline_iff
  case assignBlock =>
    obtain ⟨rfl, rfl⟩ := hop
    exact decision_assign fun s => holdsBlock_iff

/-! ## Where identifiers are distinct -/

theorem Named.mem_ids (h : r.Named id i s) : id ∈ r.ids :=
  List.mem_map.2 ⟨s, List.mem_of_getElem? h.here, h.named⟩

theorem Named.index? (hids : r.ids.Nodup) (h : r.Named id i s) : r.index? id = some i :=
  (index?_eq_some_iff hids).2 (by simp [ids, h.here, h.named])

theorem Named.unique (hids : r.ids.Nodup) (h : r.Named id i s) (h' : r.Named id j t) :
    i = j ∧ s = t := by
  obtain rfl : i = j := Option.some.inj ((h.index? hids).symm.trans (h'.index? hids))
  exact ⟨rfl, Option.some.inj (h.here.symm.trans h'.here)⟩

section Decided

variable (hids : r.ids.Nodup) (hop : op.gives = some (id, a)) (hnamed : r.Named id i s)
include hids hop hnamed

/-- A worker that is not idle, or holds a unit, is given none. -/
theorem perform_of_unfit (hunfit : s.state ≠ .idle ∨ s.assignment ≠ none) :
    op.perform r = r.refuse (.invalidState id s.state) := by
  have hdecision := decision_perform (r := r) hop
  generalize op.perform r = reply at hdecision ⊢
  cases hdecision with
  | unknown h => exact absurd hnamed.mem_ids h
  | unfit worker =>
    obtain ⟨rfl, rfl⟩ := hnamed.unique hids worker
    rfl
  | held worker idle empty | given worker idle empty =>
    obtain ⟨rfl, rfl⟩ := hnamed.unique hids worker
    exact absurd hunfit (by simp [idle, empty])

/-- A unit that is held is given to nobody else. -/
theorem perform_of_held (hexclusive : r.Exclusive) (hidle : s.state = .idle)
    (hempty : s.assignment = none) (ht : r.slots[j]? = some t) (hholds : r.Holds j a) :
    op.perform r = r.refuse (.alreadyAssigned t.lcore.id a.describe) := by
  have hdecision := decision_perform (r := r) hop
  generalize op.perform r = reply at hdecision ⊢
  cases hdecision with
  | unknown h => exact absurd hnamed.mem_ids h
  | unfit worker unfit =>
    obtain ⟨rfl, rfl⟩ := hnamed.unique hids worker
    exact absurd unfit (by simp [hidle, hempty])
  | given _ _ _ free => exact absurd hholds (free j)
  | @held _ j' _ _ _ _ _ holder holds =>
    -- the first holder is the only one
    obtain ⟨b, hb, hkey⟩ := hholds
    obtain ⟨b', hb', hkey'⟩ := holds
    obtain rfl := hexclusive j j' b b' hb hb' (hkey.trans hkey'.symm)
    rw [Option.some.inj (ht.symm.trans holder)]

/-- An idle worker that holds nothing is given a unit that nobody holds. -/
theorem perform_of_free (hidle : s.state = .idle) (hempty : s.assignment = none)
    (hfree : ∀ j, ¬r.Holds j a) :
    op.perform r = ⟨.ok .done, r.withAssignment i s (some a), false⟩ := by
  have hdecision := decision_perform (r := r) hop
  generalize op.perform r = reply at hdecision ⊢
  cases hdecision with
  | unknown h => exact absurd hnamed.mem_ids h
  | unfit worker unfit =>
    obtain ⟨rfl, rfl⟩ := hnamed.unique hids worker
    exact absurd unfit (by simp [hidle, hempty])
  | held _ _ _ _ holds => exact absurd holds (hfree _)
  | given worker =>
    obtain ⟨rfl, rfl⟩ := hnamed.unique hids worker
    rfl

end Decided

/-- A unit is given away only if all three checks are passed. -/
theorem exists_of_given (hop : op.gives = some (id, a)) (hok : (op.perform r).answer = .ok .done) :
    ∃ i s, r.Named id i s ∧ s.state = .idle ∧ s.assignment = none ∧ ∀ j, ¬r.Holds j a := by
  have hdecision := decision_perform (r := r) hop
  generalize op.perform r = reply at hdecision hok
  cases hdecision with
  | given worker idle empty free => exact ⟨_, _, worker, idle, empty, free⟩
  | unknown | unfit | held => cases hok

/-! ## Taking a unit back -/

theorem withAssignment_withAssignment (h : r.slots[i]? = some s) (a : Option Assignment) :
    (r.withAssignment i s a).withAssignment i { s with assignment := a } s.assignment = r := by
  obtain ⟨hi, rfl⟩ := List.getElem?_eq_some_iff.1 h
  have hsame : r.slots.set i r.slots[i] = r.slots := List.set_getElem_self hi
  rw [withAssignment, withAssignment, List.set_set, hsame]

theorem release_of_idle (h : s.state = .idle) : s.release = { s with assignment := none } := by
  rcases s.release_cases with ⟨hrun, -⟩ | ⟨hfail, -⟩ | ⟨-, -, hs⟩
  · simp [h] at hrun
  · simp [Slot.recoverable, h] at hfail
  · exact hs

/-- To clear a unit that an idle worker holds takes it away from this worker, and does nothing
else. -/
theorem perform_takesBack (hunshared : r.Exclusive) (hids : r.ids.Nodup)
    (hop : op.gives = some (id, a)) (hclear : op.takesBack = some clear) (hnamed : r.Named id i s)
    (hidle : s.state = .idle) (hholds : r.Holds i a) :
    clear.perform r = ⟨.ok .done, r.withAssignment i s none, true⟩ := by
  obtain ⟨b, hb, hkey⟩ := hholds
  have hs : s.assignment = some b := (held_eq hnamed.here).symm.trans hb
  have hupdate : r.update i Slot.release = r.withAssignment i s none := by
    rw [update_eq_set hnamed.here, release_of_idle hidle, withAssignment]
  cases op <;> simp only [Operation.gives, Operation.takesBack, Option.some.injEq, Prod.mk.injEq,
    reduceCtorEq] at hop hclear
  case assignPipeline =>
    obtain ⟨rfl, rfl⟩ := hop
    obtain rfl := hclear
    have hindex := hnamed.index? hids
    obtain ⟨i', t, ht, hi', hslot⟩ := (r.named_cases _).resolve_left fun h => h.1 hnamed.mem_ids
    obtain ⟨rfl, rfl⟩ := ht.unique hids hnamed
    have hpipe : t.assignment.any Assignment.isPipeline = true := by
      rw [hs]
      exact (Prod.mk.inj hkey).1
    simp only [Operation.perform, clearPipeline, hindex, hslot, hpipe, if_true, hupdate]
    rfl
  case assignBlock =>
    obtain ⟨rfl, rfl⟩ := hop
    obtain rfl := hclear
    obtain ⟨hi, hget⟩ := List.getElem?_eq_some_iff.1 hnamed.here
    have hfirst : r.slots.findIdx? (Slot.holdsBlock ‹Block›) = some i := by
      refine List.findIdx?_eq_some_iff_getElem.2 ⟨hi, ?_, fun j hj hblock => ?_⟩
      · rw [hget]
        exact holdsBlock_iff.2 ⟨b, hs, hkey⟩
      · obtain ⟨c, hc, hsame⟩ := holdsBlock_iff.1 hblock
        have hheld := held_eq_some_iff.2 ⟨_, List.getElem?_eq_getElem (Nat.lt_trans hj hi), hc⟩
        exact Nat.ne_of_lt hj (hunshared j i c b hheld hb (hsame.trans hkey.symm))
    simp only [Operation.perform, clearBlock, hfirst, hupdate]
    rfl

/-- What has been given to an idle worker is taken back without a trace. -/
theorem perform_takesBack_perform (h : Reachable lcores r) (hids : (lcores.map (·.id)).Nodup)
    (hop : op.gives = some (id, a)) (hclear : op.takesBack = some clear) (hnamed : r.Named id i s)
    (hidle : s.state = .idle) (hempty : s.assignment = none) (hfree : ∀ j, ¬r.Holds j a) :
    clear.perform (op.perform r).after = ⟨.ok .done, r, true⟩ := by
  have hgiven := perform_of_free (h.ids_eq ▸ hids) hop hnamed hidle hempty hfree
  have hafter : Reachable lcores (op.perform r).after := h.perform op
  rw [hgiven] at hafter ⊢
  have hget : (r.withAssignment i s (some a)).slots[i]? = some { s with assignment := some a } := by
    simp [withAssignment, (List.getElem?_eq_some_iff.1 hnamed.here).1]
  have hrestored := withAssignment_withAssignment hnamed.here (some a)
  rw [hempty] at hrestored
  have hdistinct : (r.withAssignment i s (some a)).ids.Nodup := hafter.ids_eq ▸ hids
  rw [perform_takesBack hafter.exclusive hdistinct hop hclear ⟨hget, hnamed.named⟩ hidle
    ⟨a, held_eq hget, rfl⟩, hrestored]

/-! ## The decision -/

/-- Whatever has happened to a registry with distinct identifiers, a unit is given to a worker if
and only if the worker is configured, idle and holds nothing, and nobody holds the unit. Otherwise
the first of these conditions that fails decides on the error : an identifier that is not configured
is unknown, a worker that is not idle or holds a unit is in the wrong state, and a unit that is held
is refused with its name, on account of the holder. A refusal changes nothing. A success changes
what the one worker holds and nothing else : a block is recorded as it is, and a pipeline with its
timer period, for which ten milliseconds stand if it is zero. To clear the unit takes it away again
from the worker, as long as this is idle, and at once restores the registry. -/
theorem assignment_decided (h : Reachable lcores r) (hids : (lcores.map (·.id)).Nodup)
    (hop : op.gives = some (id, a)) :
    ((op.perform r).answer = .ok .done ↔
      ∃ i s, r.Named id i s ∧ s.state = .idle ∧ s.assignment = none ∧ ∀ j, ¬r.Holds j a) ∧
    (id ∉ lcores.map (·.id) → op.perform r = r.refuse (.unknownWorker id)) ∧
    (∀ i s, r.Named id i s →
      (s.state ≠ .idle ∨ s.assignment ≠ none → op.perform r = r.refuse (.invalidState id s.state)) ∧
      (s.state = .idle → s.assignment = none →
        (∀ j t, r.slots[j]? = some t → r.Holds j a →
          op.perform r = r.refuse (.alreadyAssigned t.lcore.id a.describe)) ∧
        ((∀ j, ¬r.Holds j a) →
          op.perform r = ⟨.ok .done, r.withAssignment i s (some a), false⟩ ∧
          ∀ clear, op.takesBack = some clear →
            clear.perform (op.perform r).after = ⟨.ok .done, r, true⟩)) ∧
      ∀ clear, op.takesBack = some clear → s.state = .idle → r.Holds i a →
        clear.perform r = ⟨.ok .done, r.withAssignment i s none, true⟩) ∧
    (∀ p periodMs, op = .assignPipeline id p periodMs →
      a = .pipeline ⟨p.id, p.name, if periodMs = 0 then 10 else periodMs⟩ ∧
        a.describe = "pipeline " ++ p.name) ∧
    ∀ b, op = .assignBlock id b → a = .block b ∧ a.describe = "block " ++ b.name := by
  have hdistinct : r.ids.Nodup := h.ids_eq ▸ hids
  refine ⟨⟨exists_of_given hop, ?_⟩, fun hunknown => ?_, fun i s hnamed => ⟨?_, ?_, ?_⟩, ?_, ?_⟩
  · rintro ⟨i, s, hnamed, hidle, hempty, hfree⟩
    rw [perform_of_free hdistinct hop hnamed hidle hempty hfree]
  · rw [← h.ids_eq] at hunknown
    exact perform_of_unknown (Operation.names_of_gives hop) (index?_eq_none_iff.2 hunknown)
  · exact perform_of_unfit hdistinct hop hnamed
  · intro hidle hempty
    refine ⟨fun j t ht hholds => ?_, fun hfree => ⟨?_, fun clear hclear => ?_⟩⟩
    · exact perform_of_held hdistinct hop hnamed h.exclusive hidle hempty ht hholds
    · exact perform_of_free hdistinct hop hnamed hidle hempty hfree
    · exact perform_takesBack_perform h hids hop hclear hnamed hidle hempty hfree
  · intro clear hclear hidle hholds
    exact perform_takesBack h.exclusive hdistinct hop hclear hnamed hidle hholds
  · rintro p periodMs rfl
    obtain rfl : _ = a := (Prod.mk.inj (Option.some.inj hop)).2
    exact ⟨rfl, rfl⟩
  · rintro b rfl
    obtain rfl : _ = a := (Prod.mk.inj (Option.some.inj hop)).2
    exact ⟨rfl, rfl⟩

/-- The first of three workers was given a block. -/
def oneHeld : Registry :=
  ((Operation.assignBlock 1 ⟨7, "rx"⟩).perform (ofLcores [.worker 1, .worker 2, .worker 3])).after

/-- In `oneHeld` a pipeline with the number and the name of the block is given to the second worker,
with the timer period of ten milliseconds, and taken back. The block is given to nobody, under
whatever name, its holder included, and neither is a new one to the holder or to an unknown worker.
-/
theorem assignment_decided_oneHeld :
    Reachable [.worker 1, .worker 2, .worker 3] oneHeld ∧
    ((Operation.assignPipeline 2 ⟨7, "rx"⟩ 0).perform oneHeld).answer = .ok .done ∧
    ((Operation.assignPipeline 2 ⟨7, "rx"⟩ 0).perform oneHeld).after.held 1 =
      some (.pipeline ⟨7, "rx", 10⟩) ∧
    (Operation.clearPipeline 2).perform
      ((Operation.assignPipeline 2 ⟨7, "rx"⟩ 0).perform oneHeld).after =
        ⟨.ok .done, oneHeld, true⟩ ∧
    (Operation.assignBlock 3 ⟨7, "tx"⟩).perform oneHeld =
      oneHeld.refuse (.alreadyAssigned 1 "block tx") ∧
    (Operation.assignBlock 1 ⟨7, "rx"⟩).perform oneHeld = oneHeld.refuse (.invalidState 1 .idle) ∧
    (Operation.assignBlock 4 ⟨8, "tx"⟩).perform oneHeld = oneHeld.refuse (.unknownWorker 4) := by
  have hreach : Reachable [.worker 1, .worker 2, .worker 3] oneHeld := .perform .fresh _
  have hids : (([.worker 1, .worker 2, .worker 3] : List Lcore).map (·.id)).Nodup := by decide
  have hfree : ∀ j, ¬oneHeld.Holds j (.pipeline (.of ⟨7, "rx"⟩ 0)) := by
    rintro j ⟨b, hb, hkey⟩
    match j with
    | 0 => cases hb; cases hkey
    | 1 | 2 => cases hb
    | _ + 3 => cases hb
  have hfirst : oneHeld.Named 1 0 { lcore := .worker 1, assignment := some (.block ⟨7, "rx"⟩) } :=
    ⟨rfl, rfl⟩
  have hsecond : oneHeld.Named 2 1 (.fresh (.worker 2)) := ⟨rfl, rfl⟩
  have hthird : oneHeld.Named 3 2 (.fresh (.worker 3)) := ⟨rfl, rfl⟩
  have hholds : oneHeld.Holds 0 (.block ⟨7, "tx"⟩) := ⟨_, rfl, rfl⟩
  have hgives : (Operation.assignPipeline 2 ⟨7, "rx"⟩ 0).gives =
    some (2, .pipeline (.of ⟨7, "rx"⟩ 0)) := rfl
  have hgives' (id : Nat) (b : Block) :
    (Operation.assignBlock id b).gives = some (id, .block b) := rfl
  obtain ⟨hok, -, hpipeline, hrecorded, -⟩ := assignment_decided hreach hids hgives
  obtain ⟨hgiven, hback⟩ := ((hpipeline 1 _ hsecond).2.1 rfl rfl).2 hfree
  have hheld := (assignment_decided hreach hids (hgives' 3 ⟨7, "tx"⟩)).2.2.1 2 _ hthird
  have hunfit := (assignment_decided hreach hids (hgives' 1 ⟨7, "rx"⟩)).2.2.1 0 _ hfirst
  have hunknown := (assignment_decided hreach hids (hgives' 4 ⟨8, "tx"⟩)).2.1
  refine ⟨hreach, hok.2 ⟨1, _, hsecond, rfl, rfl, hfree⟩, ?_, hback _ rfl,
    (hheld.2.1 rfl rfl).1 0 _ rfl hholds, hunfit.1 (Or.inr nofun), hunknown (by decide)⟩
  rw [hgiven, (hrecorded ⟨7, "rx"⟩ 0 rfl).1]
  rfl

end Registry

end CoreFleet
