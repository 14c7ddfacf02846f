import CoreFleet.Proofs.Registry.Holding

/-!
# Who holds a unit

A registry is `Reachable` if any history of operations and looks leads to it from a fresh one,
whoever makes them and in whatever order : a report or a retirement need not come from a thread
that follows its protocol. Even so no unit is held twice (`Reachable.exclusive`).

An operation that clears a block, or refuses a unit because it is held, looks for the first
worker only that holds it. `holders_unique` says why this is enough : there is no other one. So
nobody holds a block that was cleared, and the worker that a refusal names is the only holder.
-/

namespace CoreFleet.Registry

/-- Some history of operations and looks leads from a fresh registry to this one. -/
inductive Reachable (lcores : List Lcore) : Registry → Prop
  | fresh : Reachable lcores (ofLcores lcores)
  | perform {r : Registry} (h : Reachable lcores r) (op : Operation) :
    Reachable lcores (op.perform r).after
  | awaken {r : Registry} (h : Reachable lcores r) (i : Nat) : Reachable lcores (r.awaken i).after

/-- The worker at a position holds the unit that `a` assigns, whatever its name and its period. -/
def Holds (r : Registry) (i : Nat) (a : Assignment) : Prop :=
  ∃ b, r.held i = some b ∧ b.key = a.key

variable {lcores : List Lcore} {r : Registry} {i j id : Nat} {a : Assignment}

/-- No history makes two workers hold one unit. -/
theorem Reachable.exclusive (h : Reachable lcores r) : r.Exclusive := by
  induction h with
  | fresh => exact exclusive_ofLcores lcores
  | perform _ op ih => exact exclusive_perform ih op
  | awaken _ i ih =>
    unfold Exclusive
    rw [held_awaken]
    exact ih

/-- Workers that hold one unit are one worker, if no unit is held by two. -/
theorem Exclusive.holds_unique (h : r.Exclusive) (hi : r.Holds i a) (hj : r.Holds j a) :
    i = j := by
  obtain ⟨b, hb, hkey⟩ := hi
  obtain ⟨c, hc, hkey'⟩ := hj
  exact h i j b c hb hc (hkey.trans hkey'.symm)

/-- The worker whose block is cleared holds it. -/
theorem holds_of_findIdx? {b : Block} (h : r.slots.findIdx? (Slot.holdsBlock b) = some i) :
    r.Holds i (.block b) := by
  obtain ⟨hlt, hholds, -⟩ := List.findIdx?_eq_some_iff_getElem.1 h
  obtain ⟨a, ha, hsame⟩ := (Option.any_eq_true _ _).1 hholds
  exact ⟨a, held_eq_some_iff.2 ⟨_, List.getElem?_eq_getElem hlt, ha⟩,
    Assignment.holdsBlock_iff.1 hsame⟩

/-- What a worker holds after an operation that does not give it a unit, it held before. If the
operation took a unit away from this worker, it holds nothing. -/
theorem held_of_not_gives {op : Operation} (hop : op.gives = none)
    (h : (op.perform r).after.held i = some a) :
    r.held i = some a ∧ op.clears r i = false := by
  have hlt : i < r.slots.length := by
    obtain ⟨s', hs', -⟩ := held_eq_some_iff.1 h
    rw [← length_perform op r]
    exact (List.getElem?_eq_some_iff.1 hs').1
  have hs := List.getElem?_eq_getElem hlt
  obtain ⟨s', hs', hchange⟩ := change_perform op hs
  rw [held_eq hs'] at h
  rw [held_eq hs]
  cases hchange with
  | keep _ calm =>
    refine ⟨h, Bool.eq_false_iff.2 fun hclears => ?_⟩
    exact nomatch calm.symm.trans (Operation.asksToStop_of_clears hclears)
  | assign gives => exact nomatch hop.symm.trans gives
  | release => simp at h
  | stop => exact ⟨by simpa using h, rfl⟩
  | finish => exact ⟨by simpa using h, rfl⟩
  | recover | launch | retire | shutdown => exact ⟨h, rfl⟩

/-- A worker that holds a pipeline loses it when its pipeline is cleared. -/
theorem isPipeline_of_held_clearPipeline (hid : r.index? id = some i)
    (h : ((Operation.clearPipeline id).perform r).after.held i = some a) :
    a.isPipeline = false := by
  obtain ⟨hheld, hclears⟩ := held_of_not_gives rfl h
  obtain ⟨s, hs, hs'⟩ := held_eq_some_iff.1 hheld
  simpa [Operation.clears, hid, hs, hs'] using hclears

/-- A block that is cleared is held by nobody, if it was held by at most one worker. -/
theorem not_holds_clearBlock (hr : r.Exclusive) (b : Block) (i : Nat) :
    ¬((Operation.clearBlock b).perform r).after.Holds i (.block b) := by
  rintro ⟨a, h, hkey⟩
  obtain ⟨hheld, hclears⟩ := held_of_not_gives rfl h
  obtain ⟨s, hs, hs'⟩ := held_eq_some_iff.1 hheld
  have hholds : s.holdsBlock b = true := by
    simpa [Slot.holdsBlock, hs'] using Assignment.holdsBlock_iff.2 hkey
  cases hk : r.slots.findIdx? (Slot.holdsBlock b) with
  | none =>
    have := List.findIdx?_eq_none_iff.1 hk s (List.mem_of_getElem? hs)
    simp [hholds] at this
  | some k =>
    obtain rfl := hr.holds_unique (holds_of_findIdx? hk) ⟨a, hheld, hkey⟩
    simp [Operation.clears, hk] at hclears

theorem error_of_map {α β : Type} {f : α → β} {p : Reply (Except Error α)} {e : Error}
    (h : (p.map fun x => x.map f).answer = .error e) : p.answer = .error e := by
  cases hp : p.answer with
  | error e' => simpa [Reply.map, hp, Except.map] using h
  | ok x => simp [Reply.map, hp, Except.map] at h

/-- A refusal because the unit is held names the unit and a worker that holds it. -/
theorem assign_alreadyAssigned {held : Slot → Bool} {other : Nat} {unit : String}
    (hheld : ∀ s, held s = true → ∃ b, s.assignment = some b ∧ b.key = a.key)
    (h : (r.assign id a held).answer = .error (.alreadyAssigned other unit)) :
    unit = a.describe ∧ ∃ s k, r.slots[k]? = some s ∧ s.lcore.id = other ∧ r.Holds k a := by
  unfold assign at h
  split at h
  · split at h
    · split at h
      · rename_i s hs
        obtain ⟨rfl, rfl⟩ : s.lcore.id = other ∧ a.describe = unit := by
          simpa [refuse, answer] using h
        obtain ⟨k, hk⟩ := List.mem_iff_getElem?.1 (List.mem_of_find?_eq_some hs)
        obtain ⟨b, hb, hkey⟩ := hheld s (List.find?_some hs)
        exact ⟨rfl, s, k, hk, rfl, b, held_eq_some_iff.2 ⟨s, hk, hb⟩, hkey⟩
      · cases h
    · simp [refuse, answer] at h
  · simp [refuse, answer] at h

/-- Only an operation that gives a unit away is refused because the unit is held, and its refusal
names the unit and a holder. -/
theorem holder_of_alreadyAssigned {op : Operation} {other : Nat} {unit : String}
    (h : (op.perform r).answer = .error (.alreadyAssigned other unit)) :
    ∃ id a, op.gives = some (id, a) ∧ unit = a.describe ∧
      ∃ s k, r.slots[k]? = some s ∧ s.lcore.id = other ∧ r.Holds k a := by
  cases op with
  | assignPipeline id p periodMs =>
    refine ⟨id, _, rfl, assign_alreadyAssigned (fun s hs => ?_) (error_of_map h)⟩
    obtain ⟨b, hb, hkey⟩ := (Option.any_eq_true _ _).1 hs
    exact ⟨b, hb, Assignment.holdsPipeline_iff.1 hkey⟩
  | assignBlock id c =>
    refine ⟨id, _, rfl, assign_alreadyAssigned (fun s hs => ?_) (error_of_map h)⟩
    obtain ⟨b, hb, hkey⟩ := (Option.any_eq_true _ _).1 hs
    exact ⟨b, hb, Assignment.holdsBlock_iff.1 hkey⟩
  | clearPipeline id =>
    have h := error_of_map h
    unfold clearPipeline at h
    repeat' split at h
    all_goals simp [refuse, answer] at h
  | reset id =>
    have h := error_of_map h
    unfold reset at h
    repeat' split at h
    all_goals simp [refuse, answer] at h
  | start =>
    have h := error_of_map h
    unfold start at h
    split at h
    all_goals simp [refuse, answer] at h
  | state id | isRunning id | info id =>
    simp only [Operation.perform, answer, state?, isRunning?, report?] at h
    cases hs : r.slot? id <;> simp [hs, Except.map] at h
  | clearBlock | stop | snapshot | workers | finish | retire | shutdown => cases h

/-! ## Holders are unique -/

/-- Whatever has happened to a registry, each unit is held by at most one worker. Hence a block
that is cleared is held by nobody, a worker whose pipeline is cleared holds none, and a refusal
because the unit is held names the one worker that holds it. -/
theorem holders_unique (h : Reachable lcores r) :
    (∀ i j a, r.Holds i a → r.Holds j a → i = j) ∧
    (∀ b i, ¬((Operation.clearBlock b).perform r).after.Holds i (.block b)) ∧
    (∀ id i a, r.index? id = some i →
      ((Operation.clearPipeline id).perform r).after.held i = some a → a.isPipeline = false) ∧
    ∀ (op : Operation) other unit, (op.perform r).answer = .error (.alreadyAssigned other unit) →
      ∃ id a, op.gives = some (id, a) ∧ unit = a.describe ∧
        ∃ s k, r.slots[k]? = some s ∧ s.lcore.id = other ∧ r.Holds k a ∧
          ∀ j, r.Holds j a → j = k := by
  have hunique : ∀ i j a, r.Holds i a → r.Holds j a → i = j := by
    rintro i j a ⟨b, hi, hb⟩ ⟨c, hj, hc⟩
    exact h.exclusive i j b c hi hj (hb.trans hc.symm)
  refine ⟨hunique, not_holds_clearBlock h.exclusive, ?_, ?_⟩
  · exact fun id i a hid => isPipeline_of_held_clearPipeline hid
  · intro op other unit hanswer
    obtain ⟨id, a, hgives, hunit, s, k, hk, hid, hholder⟩ := holder_of_alreadyAssigned hanswer
    exact ⟨id, a, hgives, hunit, s, k, hk, hid, hholder, fun j hj => hunique j k a hj hholder⟩

/-- Two workers were started, and the first one failed with its block. -/
def afterFailure : Registry :=
  [.assignBlock 1 ⟨7, "rx"⟩, .start, .finish 0 (some "bad table"), .finish 1 none].foldl
    (fun r op => (Operation.perform op r).after) (ofLcores [.worker 1, .worker 2])

/-- The failed worker still holds its block. Another worker that is to be given it, under a new
name, is refused on account of the failed one, and nobody holds it once it is cleared. -/
theorem holders_unique_afterFailure :
    Reachable [.worker 1, .worker 2] afterFailure ∧
    ((Operation.assignBlock 2 ⟨7, "tx"⟩).perform afterFailure).answer =
      .error (.alreadyAssigned 1 "block tx") ∧
    (∃ id a, (Operation.assignBlock 2 ⟨7, "tx"⟩).gives = some (id, a) ∧ "block tx" = a.describe ∧
      ∃ s k, afterFailure.slots[k]? = some s ∧ s.lcore.id = 1 ∧ afterFailure.Holds k a ∧
        ∀ j, afterFailure.Holds j a → j = k) ∧
    afterFailure.Holds 0 (.block ⟨7, "rx"⟩) ∧
    (∀ i, ¬((Operation.clearBlock ⟨7, "rx"⟩).perform afterFailure).after.Holds i
      (.block ⟨7, "rx"⟩)) ∧
    afterFailure.index? 1 = some 0 ∧
    ∀ a, ((Operation.clearPipeline 1).perform afterFailure).after.held 0 = some a →
      a.isPipeline = false := by
  have hreach : Reachable [.worker 1, .worker 2] afterFailure :=
    .perform (.perform (.perform (.perform .fresh _) _) _) _
  have hrefused : ((Operation.assignBlock 2 ⟨7, "tx"⟩).perform afterFailure).answer =
      .error (.alreadyAssigned 1 "block tx") := rfl
  obtain ⟨-, hcleared, hpipeline, hnames⟩ := holders_unique hreach
  exact ⟨hreach, hrefused, hnames _ _ _ hrefused, ⟨_, rfl, rfl⟩, hcleared _, rfl,
    fun a => hpipeline 1 0 a rfl⟩

end CoreFleet.Registry
