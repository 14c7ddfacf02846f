import CoreFleet.Proofs.Registry.Decision

/-!
# Operations about different workers

An operation about one worker (`Registry.About`) exchanges the slot of this worker, and looks at
the other ones only to find out who holds a unit (`Operation.seeks`). It does not notice that the
slot of another worker is exchanged, if this unit is neither in the old slot nor in the new one
(`perform_withSlot`).

Hence two operations about different workers can change places (`operations_commute`), if neither
of them gives away a unit that the other one gives away, or that the other one's worker holds. Both
conditions are needed. Of two workers that are to be given one unit the first one gets it
(`perform_after_rival`), and a unit that is held is given away only after it was cleared
(`perform_after_clearing`).
-/

namespace CoreFleet

/-- The unit that an operation looks for among all workers : the one it gives away, or the block
that it clears. -/
def Operation.seeks : Operation → Option (Bool × UnitId)
  | assignPipeline _ p _ => some (true, p.id)
  | assignBlock _ b | clearBlock b => some (false, b.id)
  | _ => none

/-- The operation looks for no unit that is in this slot. -/
def Operation.Skips (op : Operation) (s : Slot) : Prop :=
  ∀ a, s.assignment = some a → op.seeks ≠ some a.key

theorem Operation.seeks_cases {op : Operation} {key : Bool × UnitId} (h : op.seeks = some key) :
    (∃ id a, op.gives = some (id, a) ∧ a.key = key) ∨
      ∃ b, op = .clearBlock b ∧ (Assignment.block b).key = key := by
  cases op <;> simp only [seeks, Option.some.injEq, reduceCtorEq] at h
  case assignPipeline | assignBlock => exact Or.inl ⟨_, _, rfl, h⟩
  case clearBlock => exact Or.inr ⟨_, rfl, h⟩

/-- Changes the registry that a reply leaves, and nothing else of it. -/
def Reply.mapAfter {α : Type} (f : Registry → Registry) (p : Reply α) : Reply α :=
  ⟨p.answer, f p.after, p.wakes⟩

namespace Registry

/-! ## Another element at one position -/

section Lists

variable {α β : Type} {l : List α} {p : α → Bool} {x y : α} {i k : Nat}

theorem map_set_of_eq {f : α → β} (hx : l[i]? = some x) (h : f y = f x) :
    (l.set i y).map f = l.map f := by
  obtain ⟨hi, rfl⟩ := List.getElem?_eq_some_iff.1 hx
  have hi' : i < (l.map f).length := by simpa using hi
  rw [List.map_set, h, ← List.getElem_map f (h := hi'), List.set_getElem_self]

theorem findIdx?_set_of_not (hx : l[i]? = some x) (h : p x = false) (h' : p y = false) :
    (l.set i y).findIdx? p = l.findIdx? p := by
  have hmap (l : List α) : l.findIdx? p = (l.map p).findIdx? id := by
    rw [List.findIdx?_map]
    rfl
  rw [hmap, hmap, map_set_of_eq hx (h'.trans h.symm)]

/-- An element without a property is not where the first one with it is. -/
theorem ne_of_findIdx? (hx : l[i]? = some x) (h : p x = false) (hk : l.findIdx? p = some k) :
    i ≠ k := by
  rintro rfl
  obtain ⟨hlt, hp, -⟩ := List.findIdx?_eq_some_iff_getElem.1 hk
  obtain rfl : l[i] = x := Option.some.inj ((List.getElem?_eq_getElem hlt).symm.trans hx)
  exact absurd hp (by simp [h])

theorem find?_set_of_not (hx : l[i]? = some x) (h : p x = false) (h' : p y = false) :
    (l.set i y).find? p = l.find? p := by
  rw [List.find?_eq_bind_findIdx?_getElem?, List.find?_eq_bind_findIdx?_getElem?,
    findIdx?_set_of_not hx h h']
  cases hk : l.findIdx? p with
  | none => rfl
  | some k => exact List.getElem?_set_ne (ne_of_findIdx? hx h hk)

end Lists

variable {lcores : List Lcore} {r : Registry} {op op' clear : Operation} {id id' i j k : Nat}
  {a a' : Assignment} {s s' t : Slot}

/-! ## Another slot at one position -/

/-- The registry with another slot at a position. -/
def withSlot (r : Registry) (i : Nat) (t : Slot) : Registry := { r with slots := r.slots.set i t }

theorem getElem?_withSlot_self (hs : r.slots[i]? = some s) :
    (r.withSlot i t).slots[i]? = some t :=
  List.getElem?_set_self (List.getElem?_eq_some_iff.1 hs).1

theorem getElem?_withSlot_ne (hij : i ≠ j) : (r.withSlot i t).slots[j]? = r.slots[j]? :=
  List.getElem?_set_ne hij

theorem withSlot_comm (r : Registry) (hij : i ≠ j) :
    (r.withSlot i s).withSlot j t = (r.withSlot j t).withSlot i s := by
  simp only [withSlot, List.set_comm _ _ hij]

theorem update_withSlot (r : Registry) (hij : i ≠ j) (f : Slot → Slot) :
    (r.withSlot i t).update j f = (r.update j f).withSlot i t := by
  refine eq_of_getElem? rfl fun k => ?_
  rw [getElem?_update]
  by_cases hik : i = k
  · subst hik
    have hji : j ≠ i := Ne.symm hij
    simp only [withSlot, update, List.getElem?_set_self', List.getElem?_modify, hji, if_false]
    cases r.slots[i]? <;> rfl
  · rw [getElem?_withSlot_ne hik, getElem?_withSlot_ne hik, getElem?_update]

section Elsewhere

variable (hs : r.slots[i]? = some s) (hcore : t.lcore = s.lcore)
include hs hcore

theorem index?_withSlot : (r.withSlot i t).index? = r.index? :=
  index?_congr (map_set_of_eq hs (congrArg Lcore.id hcore))

section Named

variable (hid : r.index? id = some j) (hij : i ≠ j)
include hid hij

theorem slot?_withSlot : (r.withSlot i t).slot? id = r.slot? id := by
  have hbind (q : Registry) : q.slot? id = (q.index? id).bind (q.slots[·]?) :=
    List.find?_eq_bind_findIdx?_getElem?
  rw [hbind, hbind, index?_withSlot hs hcore, hid]
  exact getElem?_withSlot_ne hij

theorem assign_withSlot {held : Slot → Bool} (hbefore : held s = false) (hafter : held t = false) :
    (r.withSlot i t).assign id a held = (r.assign id a held).mapAfter (·.withSlot i t) := by
  have hholder : (r.withSlot i t).holder? held = r.holder? held :=
    find?_set_of_not hs hbefore hafter
  simp only [assign, index?_withSlot hs hcore, slot?_withSlot hs hcore hid hij, hid, hholder]
  cases r.slot? id with
  | none => rfl
  | some u =>
    dsimp only
    repeat' split
    · rfl
    · simp only [update_withSlot r hij, Reply.mapAfter]
    · rfl

theorem clearPipeline_withSlot :
    (r.withSlot i t).clearPipeline id = (r.clearPipeline id).mapAfter (·.withSlot i t) := by
  simp only [clearPipeline, index?_withSlot hs hcore, slot?_withSlot hs hcore hid hij, hid]
  cases r.slot? id with
  | none => rfl
  | some u =>
    dsimp only
    split
    · simp only [update_withSlot r hij, Reply.mapAfter]
    · rfl

theorem reset_withSlot :
    (r.withSlot i t).reset id = (r.reset id).mapAfter (·.withSlot i t) := by
  simp only [reset, index?_withSlot hs hcore, slot?_withSlot hs hcore hid hij, hid]
  cases r.slot? id with
  | none => rfl
  | some u =>
    dsimp only
    repeat' split
    · simp only [update_withSlot r hij, Reply.mapAfter]
    · rfl
    · rfl

end Named

end Elsewhere

/-! ## Operations about one worker -/

/-- The operation is about the worker at a position : it names this worker, clears the block that
the worker holds, or reports the end of its run loop or of its thread. -/
inductive About (r : Registry) (i : Nat) : Operation → Prop
  | named {op : Operation} {id : Nat} (names : op.names = some id) (here : r.index? id = some i) :
    About r i op
  | clearBlock {b : Block} (holds : r.Holds i (.block b)) : About r i (.clearBlock b)
  | finish {failure : Option String} (here : i < r.size) : About r i (.finish i failure)
  | retire (here : i < r.size) : About r i (.retire i)

theorem About.exists_slot (h : r.About i op) : ∃ s, r.slots[i]? = some s := by
  cases h with
  | named _ here =>
    rcases r.lookup_cases _ with ⟨hnone, -⟩ | ⟨k, s, hk, hs, -⟩
    · exact nomatch here.symm.trans hnone
    · exact ⟨s, Option.some.inj (hk.symm.trans here) ▸ hs⟩
  | clearBlock holds =>
    obtain ⟨b, hb, -⟩ := holds
    obtain ⟨s, hs, -⟩ := held_eq_some_iff.1 hb
    exact ⟨s, hs⟩
  | finish here | retire here => exact ⟨_, List.getElem?_eq_getElem here⟩

/-- An operation about one worker leaves the slots of all others alone. -/
theorem Change.eq_of_about (hchange : Change r k s op s') (hunshared : r.Exclusive)
    (hop : r.About i op) (hik : i ≠ k) : s' = s := by
  cases hop with
  | named names here =>
    have hother : r.index? _ ≠ some k := fun hk => hik (Option.some.inj (here.symm.trans hk))
    cases hchange with
    | keep => rfl
    | assign gives named =>
      obtain rfl := Option.some.inj (names.symm.trans (Operation.names_of_gives gives))
      exact absurd named hother
    | release clears =>
      cases op <;> simp only [Operation.names, Option.some.injEq, reduceCtorEq] at names
      case clearPipeline =>
        subst names
        simp [Operation.clears, hother] at clears
      all_goals cases clears
    | recover named =>
      obtain rfl := Option.some.inj names
      exact absurd named hother
    | launch | stop | finish | retire | shutdown => cases names
  | clearBlock holds =>
    cases hchange with
    | keep => rfl
    | assign gives => cases gives
    | release clears =>
      have hfirst : r.slots.findIdx? (Slot.holdsBlock _) = some k := of_decide_eq_true clears
      exact absurd (hunshared.holds_unique holds (holds_of_findIdx? hfirst)) hik
  | finish =>
    cases hchange with
    | keep => rfl
    | assign gives => cases gives
    | release clears => cases clears
    | finish => exact absurd rfl hik
  | retire =>
    cases hchange with
    | keep => rfl
    | assign gives => cases gives
    | release clears => cases clears
    | retire => exact absurd rfl hik

/-- All that an operation about one worker does is to exchange the slot of this worker. -/
theorem About.exists_change (hop : r.About i op) (hunshared : r.Exclusive) :
    ∃ s s', r.slots[i]? = some s ∧ Change r i s op s' ∧
      (op.perform r).after = r.withSlot i s' := by
  obtain ⟨s, hs⟩ := hop.exists_slot
  obtain ⟨s', hs', hchange⟩ := change_perform op hs
  refine ⟨s, s', hs, hchange, eq_of_getElem? ?_ fun k => ?_⟩
  · have hopen : op ≠ .shutdown := by
      rintro rfl
      cases hop with
      | named names => cases names
    simp [down_perform, hopen, withSlot]
  · by_cases hik : i = k
    · subst hik
      rw [hs', getElem?_withSlot_self hs]
    · rw [getElem?_withSlot_ne hik]
      cases hk : r.slots[k]? with
      | none =>
        have hlength := List.getElem?_eq_none_iff.1 hk
        exact List.getElem?_eq_none_iff.2 (length_perform op r ▸ hlength)
      | some t =>
        obtain ⟨t', ht', hother⟩ := change_perform op hk
        rw [ht', hother.eq_of_about hunshared hop hik]

/-! ## What an operation does not notice -/

theorem holdsPipeline_of_skips {p : Pipeline} (h : op.Skips s)
    (hop : op.seeks = some (true, p.id)) : s.holdsPipeline p = false := by
  refine Bool.eq_false_iff.2 fun hholds => ?_
  obtain ⟨a, ha, hkey⟩ := holdsPipeline_iff.1 hholds
  exact h a ha (hkey ▸ hop)

theorem holdsBlock_of_skips {b : Block} (h : op.Skips s) (hop : op.seeks = some (false, b.id)) :
    s.holdsBlock b = false := by
  refine Bool.eq_false_iff.2 fun hholds => ?_
  obtain ⟨a, ha, hkey⟩ := holdsBlock_iff.1 hholds
  exact h a ha (hkey ▸ hop)

/-- An operation does not notice that the slot of another worker is exchanged, if neither the old
slot nor the new one holds a unit that the operation looks for. -/
theorem perform_withSlot (hop : r.About j op) (hij : i ≠ j) (hs : r.slots[i]? = some s)
    (hcore : t.lcore = s.lcore) (hbefore : op.Skips s) (hafter : op.Skips t) :
    op.perform (r.withSlot i t) = (op.perform r).mapAfter (·.withSlot i t) := by
  cases hop with
  | @clearBlock b =>
    have hempty := holdsBlock_of_skips hbefore rfl
    have hfind : (r.withSlot i t).slots.findIdx? (Slot.holdsBlock b) =
        r.slots.findIdx? (Slot.holdsBlock b) :=
      findIdx?_set_of_not hs hempty (holdsBlock_of_skips hafter rfl)
    simp only [Operation.perform, clearBlock, hfind]
    cases hk : r.slots.findIdx? (Slot.holdsBlock b) with
    | none => rfl
    | some k =>
      simp only [update_withSlot r (ne_of_findIdx? hs hempty hk)]
      rfl
  | finish =>
    simp only [Operation.perform, finish, update_withSlot r hij]
    rfl
  | retire =>
    simp only [Operation.perform, retire, update_withSlot r hij]
    rfl
  | @named _ id names here =>
    cases op <;> simp only [Operation.names, Option.some.injEq, reduceCtorEq] at names <;>
      subst names
    case assignPipeline p periodMs =>
      simp only [Operation.perform, assignPipeline, assign_withSlot hs hcore here hij
        (holdsPipeline_of_skips hbefore rfl) (holdsPipeline_of_skips hafter rfl)]
      rfl
    case assignBlock b =>
      simp only [Operation.perform, assignBlock, assign_withSlot hs hcore here hij
        (holdsBlock_of_skips hbefore rfl) (holdsBlock_of_skips hafter rfl)]
      rfl
    case clearPipeline =>
      simp only [Operation.perform, clearPipeline_withSlot hs hcore here hij]
      rfl
    case reset =>
      simp only [Operation.perform, reset_withSlot hs hcore here hij]
      rfl
    case state | isRunning | info =>
      simp only [Operation.perform, state?, isRunning?, report?, slot?_withSlot hs hcore here hij]
      rfl

/-! ## Two operations about different workers -/

/-- Neither of two operations, about the workers at `i` and `j`, gives away a unit that the other
one gives away, or that the other one's worker holds. -/
structure Independent (r : Registry) (i j : Nat) (op op' : Operation) : Prop where
  given : ∀ id a id' a', op.gives = some (id, a) → op'.gives = some (id', a') → a.key ≠ a'.key
  left : ∀ id a, op.gives = some (id, a) → ¬r.Holds j a
  right : ∀ id a, op'.gives = some (id, a) → ¬r.Holds i a

namespace Independent

theorem symm (h : r.Independent i j op op') : r.Independent j i op' op where
  given _ _ _ _ ha ha' := Ne.symm (h.given _ _ _ _ ha' ha)
  left := h.right
  right := h.left

variable (h : r.Independent i j op op') (hop' : r.About j op') (hunshared : r.Exclusive)
  (hij : i ≠ j) (hs : r.slots[i]? = some s)
include h hop' hunshared hij hs

/-- An operation does not look for what the other one's worker holds. -/
theorem skips_before : op'.Skips s := by
  intro a ha hseeks
  have hheld : r.held i = some a := held_eq_some_iff.2 ⟨s, hs, ha⟩
  rcases Operation.seeks_cases hseeks with ⟨id, b, hgives, hkey⟩ | ⟨b, rfl, hkey⟩
  · exact h.right id b hgives ⟨a, hheld, hkey.symm⟩
  · cases hop' with
    | clearBlock holds => exact hij (hunshared.holds_unique ⟨a, hheld, hkey.symm⟩ holds)
    | named names => cases names

/-- An operation does not look for what the other one's worker holds after the other one. -/
theorem skips_after (hchange : Change r i s op s') : op'.Skips s' := by
  intro a ha hseeks
  rcases hchange.assignment_cases with hkeep | hnone | ⟨id, b, hgives, -, hb, -⟩
  · exact h.skips_before hop' hunshared hij hs a (hkeep ▸ ha) hseeks
  · exact nomatch hnone.symm.trans ha
  · obtain rfl : b = a := Option.some.inj (hb.symm.trans ha)
    rcases Operation.seeks_cases hseeks with ⟨id', c, hgives', hkey⟩ | ⟨c, rfl, hkey⟩
    · exact h.given id b id' c hgives hgives' hkey.symm
    · cases hop' with
      | clearBlock holds =>
        obtain ⟨d, hd, hsame⟩ := holds
        exact h.left id b hgives ⟨d, hd, hsame.trans hkey⟩
      | named names => cases names

end Independent

/-- Two operations about different workers can change places, whatever has happened to the registry
before, if neither of them gives away a unit that the other one gives away, or that the other one's
worker holds. In either order the registry is the same afterwards, and each of them gives the answer
that it would give alone, be it a refusal, and wakes the waiting threads or does not. Identifiers
may be repeated, as an operation is about the worker that is found under the one it names. -/
theorem operations_commute (h : Reachable lcores r) (hij : i ≠ j) (hop : r.About i op)
    (hop' : r.About j op') (hindependent : r.Independent i j op op') :
    (op'.perform (op.perform r).after).after = (op.perform (op'.perform r).after).after ∧
    (op.perform (op'.perform r).after).answer = (op.perform r).answer ∧
    (op'.perform (op.perform r).after).answer = (op'.perform r).answer ∧
    (op.perform (op'.perform r).after).wakes = (op.perform r).wakes ∧
    (op'.perform (op.perform r).after).wakes = (op'.perform r).wakes := by
  have hunshared := h.exclusive
  obtain ⟨s, s', hs, hchange, hafter⟩ := hop.exists_change hunshared
  obtain ⟨t, t', ht, hchange', hafter'⟩ := hop'.exists_change hunshared
  have hsecond : op'.perform (r.withSlot i s') = (op'.perform r).mapAfter (·.withSlot i s') :=
    perform_withSlot hop' hij hs hchange.lcore_eq
      (hindependent.skips_before hop' hunshared hij hs)
      (hindependent.skips_after hop' hunshared hij hs hchange)
  have hfirst : op.perform (r.withSlot j t') = (op.perform r).mapAfter (·.withSlot j t') :=
    perform_withSlot hop (Ne.symm hij) ht hchange'.lcore_eq
      (hindependent.symm.skips_before hop hunshared (Ne.symm hij) ht)
      (hindependent.symm.skips_after hop hunshared (Ne.symm hij) ht hchange')
  rw [hafter, hafter', hsecond, hfirst]
  refine ⟨?_, rfl, rfl, rfl, rfl⟩
  calc ((op'.perform r).after).withSlot i s'
      = (r.withSlot j t').withSlot i s' := by rw [hafter']
    _ = (r.withSlot i s').withSlot j t' := (withSlot_comm r hij).symm
    _ = ((op.perform r).after).withSlot j t' := by rw [hafter]

/-- A worker failed with its block, and a third one runs another block. The second one has come
back from its run loop, in which it had nothing to do. -/
def oneFailed : Registry :=
  [.assignBlock 1 ⟨7, "rx"⟩, .assignBlock 3 ⟨9, "tx"⟩, .start, .finish 0 (some "bad table"),
    .finish 1 none].foldl (fun r op => (Operation.perform op r).after)
      (ofLcores [.worker 1, .worker 2, .worker 3])

/-- In `oneFailed` the block of the first worker is cleared, before or after the second worker is
given a pipeline with the number and the name of this block, and before or after it is refused the
block of the third worker. -/
theorem operations_commute_oneFailed :
    let clear : Operation := .clearBlock ⟨7, "rx"⟩
    let give : Operation := .assignPipeline 2 ⟨7, "rx"⟩ 0
    let refused : Operation := .assignBlock 2 ⟨9, "tx"⟩
    Reachable [.worker 1, .worker 2, .worker 3] oneFailed ∧ oneFailed.About 0 clear ∧
    oneFailed.About 1 give ∧ oneFailed.Independent 0 1 clear give ∧
    (give.perform (clear.perform oneFailed).after).after =
      (clear.perform (give.perform oneFailed).after).after ∧
    (give.perform (clear.perform oneFailed).after).answer = .ok .done ∧
    (clear.perform (give.perform oneFailed).after).wakes = true ∧
    oneFailed.About 1 refused ∧ oneFailed.Independent 0 1 clear refused ∧
    (refused.perform (clear.perform oneFailed).after).answer =
      .error (.alreadyAssigned 3 "block tx") ∧
    (refused.perform (clear.perform oneFailed).after).after = (clear.perform oneFailed).after := by
  intro clear give refused
  have hreach : Reachable [.worker 1, .worker 2, .worker 3] oneFailed :=
    .perform (.perform (.perform (.perform (.perform .fresh _) _) _) _) _
  have hclear : oneFailed.About 0 clear := .clearBlock ⟨_, rfl, rfl⟩
  have hgive : oneFailed.About 1 give := .named rfl rfl
  have hrefused : oneFailed.About 1 refused := .named rfl rfl
  -- the first worker holds its own block alone
  have hholds {a : Assignment} (h : oneFailed.Holds 0 a) : a.key = (false, 7) := by
    obtain ⟨b, hb, hkey⟩ := h
    cases hb
    exact hkey.symm
  have hindependent : oneFailed.Independent 0 1 clear give := by
    refine ⟨nofun, nofun, fun id a hgives h => ?_⟩
    cases hgives
    exact nomatch hholds h
  have hindependent' : oneFailed.Independent 0 1 clear refused := by
    refine ⟨nofun, nofun, fun id a hgives h => ?_⟩
    cases hgives
    exact nomatch hholds h
  obtain ⟨hsame, -, hanswer, hwakes, -⟩ :=
    operations_commute hreach (by decide) hclear hgive hindependent
  obtain ⟨hsame', -, hanswer', -, -⟩ :=
    operations_commute hreach (by decide) hclear hrefused hindependent'
  exact ⟨hreach, hclear, hgive, hindependent, hsame, hanswer, hwakes, hrefused, hindependent',
    hanswer', hsame'⟩

/-! ## Why both conditions are needed -/

/-- An operation that takes a unit away from a worker is about this worker. -/
theorem About.of_clears (h : clear.clears r j = true) : r.About j clear := by
  cases clear with
  | clearPipeline id => exact .named rfl (of_decide_eq_true (Bool.and_eq_true_iff.1 h).1)
  | clearBlock b => exact .clearBlock (holds_of_findIdx? (of_decide_eq_true h))
  | _ => cases h

theorem Named.perform (hnamed : r.Named id i s) (hunshared : r.Exclusive) (hij : i ≠ j)
    (hop : r.About j op) : (op.perform r).after.Named id i s := by
  obtain ⟨-, t', -, -, hafter⟩ := hop.exists_change hunshared
  rw [hafter]
  exact ⟨(getElem?_withSlot_ne (Ne.symm hij)).trans hnamed.here, hnamed.named⟩

section Needed

variable (h : Reachable lcores r) (hids : (lcores.map (·.id)).Nodup)
  (hop : op.gives = some (id, a)) (hnamed : r.Named id i s) (hidle : s.state = .idle)
  (hempty : s.assignment = none)
include h hids hop hnamed hidle hempty

/-- Two workers that are ready for a unit are to be given the same one, which is free. Each of them
would be given it alone, and is refused it after the other one. -/
theorem perform_after_rival (hij : i ≠ j) (hop' : op'.gives = some (id', a'))
    (hkey : a'.key = a.key) (hnamed' : r.Named id' j t) (hidle' : t.state = .idle)
    (hempty' : t.assignment = none) (hfree : ∀ k, ¬r.Holds k a) :
    (op.perform r).answer = .ok .done ∧
    (op.perform (op'.perform r).after).answer = .error (.alreadyAssigned id' a.describe) := by
  have hdistinct : r.ids.Nodup := h.ids_eq ▸ hids
  refine ⟨by rw [perform_of_free hdistinct hop hnamed hidle hempty hfree], ?_⟩
  have hfree' : ∀ k, ¬r.Holds k a' := fun k ⟨b, hb, hsame⟩ => hfree k ⟨b, hb, hsame.trans hkey⟩
  have hgiven := perform_of_free hdistinct hop' hnamed' hidle' hempty' hfree'
  have hindex := hnamed'.index? hdistinct
  have hafter := h.perform op'
  have hthere : (op'.perform r).after.slots[j]? = some { t with assignment := some a' } := by
    rw [hgiven]
    exact getElem?_withSlot_self hnamed'.here
  have hstill := hnamed.perform h.exclusive hij (.named (Operation.names_of_gives hop') hindex)
  rw [perform_of_held (hafter.ids_eq ▸ hids) hop hstill hafter.exclusive hidle hempty hthere
    ⟨a', held_eq hthere, hkey⟩, ← hnamed'.named]
  rfl

/-- A unit is refused to a worker that is ready for it as long as another one holds it, and given to
it once it has been cleared. -/
theorem perform_after_clearing (hclears : clear.clears r j = true) (ht : r.slots[j]? = some t)
    (hholds : r.Holds j a) :
    (op.perform r).answer = .error (.alreadyAssigned t.lcore.id a.describe) ∧
    (op.perform (clear.perform r).after).answer = .ok .done := by
  have hdistinct : r.ids.Nodup := h.ids_eq ▸ hids
  have hij : i ≠ j := by
    rintro rfl
    obtain ⟨b, hb, -⟩ := hholds
    exact nomatch hempty.symm.trans ((held_eq hnamed.here).symm.trans hb)
  refine ⟨by rw [perform_of_held hdistinct hop hnamed h.exclusive hidle hempty ht hholds]; rfl, ?_⟩
  have hafter := h.perform clear
  have hfree : ∀ k, ¬(clear.perform r).after.Holds k a := by
    rintro k ⟨b, hb, hkey⟩
    have hgives : clear.gives = none := by
      cases clear with
      | assignPipeline | assignBlock => cases hclears
      | _ => rfl
    obtain ⟨hheld, hspared⟩ := held_of_not_gives hgives hb
    obtain rfl := h.exclusive.holds_unique hholds ⟨b, hheld, hkey⟩
    exact nomatch hclears.symm.trans hspared
  have hstill := hnamed.perform h.exclusive hij (.of_clears hclears)
  rw [perform_of_free (hafter.ids_eq ▸ hids) hop hstill hidle hempty hfree]

end Needed

end Registry

end CoreFleet
