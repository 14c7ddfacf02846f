import CoreFleet.Proofs.Registry.Uniqueness
import CoreFleet.Registry.Waiting

/-!
# Refused operations

An operation checks first and changes the registry last, so that one that is refused has
changed nothing and wakes nobody (`clean_perform`). An operation that names a worker looks
it up before anything else, and is refused on this account exactly if no worker has the
identifier (`unknown_iff`). The identifiers are those of the cores that the registry was made
for : no operation adds a worker or moves one (`Reachable.ids_eq`).

`refused_changes_nothing` puts this together. Two clearings with nothing to clear belong to it,
which change nothing either, but succeed.
-/

namespace CoreFleet

/-- The identifier of the worker that an operation names. -/
def Operation.names : Operation → Option Nat
  | assignPipeline id .. | assignBlock id _ | clearPipeline id | reset id | state id | isRunning id
  | info id => some id
  | clearBlock _ | start | stop | snapshot | workers | finish .. | retire _ | shutdown => none

namespace Registry

variable {r : Registry} {lcores : List Lcore} {op : Operation} {id i k : Nat} {e : Error}

/-! ## Replies that refuse -/

/-- If the reply is an error, it is a plain refusal : the registry is as before, and nobody is
woken. -/
structure Clean {α : Type} (r : Registry) (p : Reply (Except Error α)) : Prop where
  refused : ∀ e, p.answer = .error e → p = r.refuse e

theorem clean_answer {α : Type} (r : Registry) (a : Except Error α) : r.Clean (r.answer a) where
  refused e he := by
    obtain rfl : a = .error e := he
    rfl

theorem clean_refuse {α : Type} (r : Registry) (e : Error) :
    r.Clean (r.refuse e : Reply (Except Error α)) :=
  clean_answer r (.error e)

theorem clean_ok {α : Type} (r r' : Registry) (a : α) (wakes : Bool) :
    r.Clean ⟨.ok a, r', wakes⟩ := ⟨nofun⟩

theorem Clean.map {α β : Type} {p : Reply (Except Error α)} (h : r.Clean p) (f : α → β) :
    r.Clean (p.map fun x => x.map f) where
  refused e he := by
    rw [h.refused e (error_of_map he)]
    rfl

theorem clean_assign (r : Registry) (id : Nat) (a : Assignment) (held : Slot → Bool) :
    r.Clean (r.assign id a held) := by
  unfold assign
  repeat' split
  case h_2 => exact clean_ok ..
  all_goals exact clean_refuse ..

/-- An operation that is refused has done nothing. -/
theorem clean_perform (r : Registry) (op : Operation) : r.Clean (op.perform r) := by
  cases op with
  | assignPipeline | assignBlock => exact (clean_assign ..).map _
  | clearPipeline id =>
    refine Clean.map ?_ _
    unfold clearPipeline
    repeat' split
    · exact clean_ok ..
    · exact clean_answer ..
    · exact clean_refuse ..
  | reset id =>
    refine Clean.map ?_ _
    unfold reset
    repeat' split
    · exact clean_ok ..
    · exact clean_answer ..
    · exact clean_refuse ..
    · exact clean_refuse ..
  | start =>
    refine Clean.map ?_ _
    unfold start
    split
    · exact clean_refuse ..
    · exact clean_ok ..
  | state | isRunning | info => exact clean_answer ..
  | clearBlock | stop | snapshot | workers | finish | retire | shutdown => exact clean_ok ..

/-- A look that is refused has done nothing. -/
theorem clean_look (r : Registry) (w : Wish) : r.Clean (r.look w) := by
  unfold look
  repeat' split
  · exact clean_ok ..
  · exact clean_answer ..
  · exact clean_refuse ..
  · exact clean_answer ..

/-! ## Workers that are not configured -/

theorem ids_perform (op : Operation) (r : Registry) : (op.perform r).after.ids = r.ids := by
  refine List.ext_getElem? fun i => ?_
  simp only [ids, List.getElem?_map]
  cases hs : r.slots[i]? with
  | none =>
    have hlength := List.getElem?_eq_none_iff.1 hs
    rw [List.getElem?_eq_none_iff.2 (length_perform op r ▸ hlength)]
  | some s =>
    obtain ⟨s', hs', hchange⟩ := change_perform op hs
    simp [hs', hchange.lcore_eq]

theorem ids_awaken (r : Registry) (k : Nat) : (r.awaken k).after.ids = r.ids := by
  cases hk : r.slots[k]? with
  | none => cases hdown : r.down <;> simp [awaken, hdown, hk, answer]
  | some s =>
    rcases awaken_cases hk with ⟨-, ha⟩ | ⟨-, -, ha⟩ | ⟨-, -, ha⟩ | ⟨-, -, ha⟩ <;> rw [ha]
    case inr.inr.inl =>
      refine List.ext_getElem? fun i => ?_
      simp only [ids, List.getElem?_map, getElem?_update]
      cases r.slots[i]? with
      | none => rfl
      | some t => by_cases hki : k = i <;> simp [hki]
    all_goals rfl

/-- The workers are those that the registry was made for, whatever has happened to it. -/
theorem Reachable.ids_eq (h : Reachable lcores r) : r.ids = lcores.map (·.id) := by
  induction h with
  | fresh => simp [ids, ofLcores, Slot.fresh]
  | perform _ op ih => exact (ids_perform op _).trans ih
  | awaken _ i ih => exact (ids_awaken _ i).trans ih

theorem index?_eq_none_iff : r.index? id = none ↔ id ∉ r.ids := by
  simp [index?, ids, List.findIdx?_eq_none_iff]

/-- Who is found under an identifier depends on the identifiers alone. -/
theorem index?_congr {r' : Registry} (h : r.ids = r'.ids) : r.index? = r'.index? := by
  have hfind (q : Registry) (id : Nat) : q.index? id = q.ids.findIdx? (· = id) := by
    simp [index?, ids, List.findIdx?_map, Function.comp_def]
  funext id
  rw [hfind, hfind, h]

/-- Where identifiers are distinct, the first worker with an identifier is the only one. -/
theorem index?_eq_some_iff (hids : r.ids.Nodup) : r.index? id = some i ↔ r.ids[i]? = some id := by
  have hfound {k : Nat} (hk : r.index? id = some k) : r.ids[k]? = some id := by
    rcases r.lookup_cases id with ⟨hnone, -⟩ | ⟨j, t, hj, hget, ht⟩
    · exact nomatch hk.symm.trans hnone
    · obtain rfl : j = k := Option.some.inj (hj.symm.trans hk)
      have hid : t.lcore.id = id := by simpa using List.find?_some ht
      simp [ids, hget, hid]
  refine ⟨hfound, fun hi => ?_⟩
  cases hk : r.index? id with
  | none => exact absurd (List.mem_of_getElem? hi) (index?_eq_none_iff.1 hk)
  | some k =>
    have hlt := (List.getElem?_eq_some_iff.1 hi).1
    rw [(List.getElem?_inj hlt hids).1 (hi.trans (hfound hk).symm)]

/-- An operation that names a worker looks it up before anything else. -/
theorem perform_of_unknown (hop : op.names = some id) (hid : r.index? id = none) :
    op.perform r = r.refuse (.unknownWorker id) := by
  have hslot : r.slot? id = none := by
    rcases r.lookup_cases id with ⟨-, h⟩ | ⟨k, t, hk, -⟩
    · exact h
    · exact nomatch hid.symm.trans hk
  cases op <;> simp only [Operation.names, Option.some.injEq, reduceCtorEq] at hop
  all_goals
    subst hop
    simp only [Operation.perform, assignPipeline, assignBlock, assign, clearPipeline, reset, state?,
      isRunning?, report?, hid, hslot]
    rfl

/-- An operation does not find a worker unknown that it has looked up. -/
theorem perform_of_known (hop : op.names = some id) (hid : r.index? id ≠ none) :
    (op.perform r).answer ≠ .error (.unknownWorker k) := by
  obtain ⟨i, t, hi, -, ht⟩ := (r.lookup_cases id).resolve_left fun h => hid h.1
  have hassign (a : Assignment) (held : Slot → Bool) :
      (r.assign id a held).answer ≠ .error (.unknownWorker k) := by
    simp only [assign, hi, ht]
    repeat' split
    all_goals simp [refuse, answer]
  intro h
  cases op <;> simp only [Operation.names, Option.some.injEq, reduceCtorEq] at hop <;> subst hop
  case assignPipeline | assignBlock => exact hassign _ _ (error_of_map h)
  case clearPipeline =>
    have h := error_of_map h
    simp only [clearPipeline, hi, ht] at h
    split at h <;> simp [answer] at h
  case reset =>
    have h := error_of_map h
    simp only [reset, hi, ht] at h
    repeat' split at h
    all_goals simp [refuse, answer] at h
  case state | isRunning | info =>
    simp [Operation.perform, answer, state?, isRunning?, report?, ht, Except.map] at h

/-- Nobody is found unknown but a worker that the operation names and that is not configured. -/
theorem unknown_iff : (op.perform r).answer = .error (.unknownWorker id) ↔
    op.names = some id ∧ id ∉ r.ids := by
  rw [← index?_eq_none_iff]
  constructor
  · intro h
    cases hop : op.names with
    | none =>
      cases op <;> simp only [Operation.names, reduceCtorEq] at hop
      case start =>
        rcases r.start_cases with ⟨busy, -, -, hstart⟩ | ⟨-, hstart⟩ <;>
          simp [Operation.perform, hstart, Reply.map, refuse, answer, Except.map] at h
      all_goals cases h
    | some k =>
      by_cases hid : r.index? k = none
      · rw [perform_of_unknown hop hid] at h
        obtain rfl : k = id := by simpa [refuse, answer] using h
        exact ⟨rfl, hid⟩
      · exact absurd h (perform_of_known hop hid)
  · rintro ⟨hop, hid⟩
    rw [perform_of_unknown hop hid]
    rfl

/-! ## Nothing to clear -/

theorem clearBlock_of_not_holds {b : Block} (h : ∀ i, ¬r.Holds i (.block b)) :
    r.clearBlock b = r.answer () := by
  unfold clearBlock
  cases hk : r.slots.findIdx? (Slot.holdsBlock b) with
  | none => rfl
  | some i => exact absurd (holds_of_findIdx? hk) (h i)

theorem clearPipeline_of_not_holds {i : Nat} (hid : r.index? id = some i)
    (h : ∀ a, r.held i = some a → a.isPipeline = false) :
    r.clearPipeline id = r.answer (.ok ()) := by
  rcases r.lookup_cases id with ⟨hnone, -⟩ | ⟨k, t, hk, hget, ht⟩
  · exact nomatch hid.symm.trans hnone
  · obtain rfl : i = k := Option.some.inj (hid.symm.trans hk)
    have hempty : t.assignment.any Assignment.isPipeline = false := by
      cases ha : t.assignment with
      | none => rfl
      | some a => exact h a (held_eq_some_iff.2 ⟨t, hget, ha⟩)
    simp [clearPipeline, hk, ht, hempty]

/-! ## A failed operation changes nothing -/

/-- Whatever has happened to a registry, an operation or a look that is refused leaves all of it
as it was, its slots, its flags and its mark of a shutdown, and wakes nobody. A worker is found
unknown if and only if it is named and not configured. To clear a block that nobody holds, or the
pipeline of a worker that holds none, succeeds and changes nothing either. -/
theorem refused_changes_nothing (h : Reachable lcores r) :
    (∀ (op : Operation) e, (op.perform r).answer = .error e →
      (op.perform r).after = r ∧ (op.perform r).wakes = false) ∧
    (∀ w e, (r.look w).answer = .error e → (r.look w).after = r ∧ (r.look w).wakes = false) ∧
    (∀ (op : Operation) id, (op.perform r).answer = .error (.unknownWorker id) ↔
      op.names = some id ∧ id ∉ lcores.map (·.id)) ∧
    (∀ id state, (r.look (.state id state)).answer = .error (.unknownWorker id) ↔
      id ∉ lcores.map (·.id)) ∧
    (∀ b, (∀ i, ¬r.Holds i (.block b)) →
      (Operation.clearBlock b).perform r = ⟨.ok .done, r, false⟩) ∧
    ∀ id i, r.index? id = some i → (∀ a, r.held i = some a → a.isPipeline = false) →
      (Operation.clearPipeline id).perform r = ⟨.ok .done, r, false⟩ := by
  rw [← h.ids_eq]
  refine ⟨fun op e he => ?_, fun w e he => ?_, fun op id => unknown_iff, fun id state => ?_,
    fun b hb => ?_, fun id i hid hheld => ?_⟩
  · rw [(clean_perform r op).refused e he]
    exact ⟨rfl, rfl⟩
  · rw [(clean_look r w).refused e he]
    exact ⟨rfl, rfl⟩
  · rw [← index?_eq_none_iff]
    cases hid : r.index? id <;> simp [look, hid, refuse, answer]
  · rw [Operation.perform, clearBlock_of_not_holds hb]
    rfl
  · rw [Operation.perform, clearPipeline_of_not_holds hid hheld]
    rfl

/-- After a failure of the first of two workers the registry was shut down, and the thread of the
second one has exited. -/
def closed : Registry :=
  [.shutdown, .retire 1].foldl (fun r op => (Operation.perform op r).after) afterFailure

/-- In `closed` the failed worker still holds its block, and the other one is gone. A start is
refused on account of the first worker, an assignment on account of the second one, and a reset of
a third one since there is none. The block that nobody holds is cleared in vain, and so is the
pipeline of the first worker. -/
theorem refused_changes_nothing_closed :
    Reachable [.worker 1, .worker 2] closed ∧
    (Operation.start.perform closed).answer = .error (.notReady 1 .error) ∧
    (Operation.start.perform closed).after = closed ∧
    ((Operation.assignBlock 2 ⟨8, "tx"⟩).perform closed).answer =
      .error (.invalidState 2 .error) ∧
    ((Operation.assignBlock 2 ⟨8, "tx"⟩).perform closed).after = closed ∧
    ((Operation.reset 3).perform closed).answer = .error (.unknownWorker 3) ∧
    (closed.look (.state 3 .idle)).answer = .error (.unknownWorker 3) ∧
    (closed.look (.state 3 .idle)).after = closed ∧
    (∀ i, ¬closed.Holds i (.block ⟨8, "tx"⟩)) ∧
    (Operation.clearBlock ⟨8, "tx"⟩).perform closed = ⟨.ok .done, closed, false⟩ ∧
    closed.index? 1 = some 0 ∧ closed.Holds 0 (.block ⟨7, "rx"⟩) ∧
    (Operation.clearPipeline 1).perform closed = ⟨.ok .done, closed, false⟩ := by
  have hreach : Reachable [.worker 1, .worker 2] closed :=
    .perform (.perform (.perform (.perform (.perform (.perform .fresh _) _) _) _) _) _
  have hfree : ∀ i, ¬closed.Holds i (.block ⟨8, "tx"⟩) := by
    rintro i ⟨a, ha, hkey⟩
    match i with
    | 0 => cases ha; cases hkey
    | 1 => cases ha
    | _ + 2 => cases ha
  have hblock : ∀ a, closed.held 0 = some a → a.isPipeline = false := by
    intro a ha
    cases ha
    rfl
  obtain ⟨hclean, hlook, hunknown, hstate, hblocks, hpipelines⟩ := refused_changes_nothing hreach
  refine ⟨hreach, rfl, (hclean .start _ rfl).1, rfl, (hclean (.assignBlock 2 _) _ rfl).1, ?_, ?_,
    (hlook (.state 3 .idle) _ rfl).1, hfree, hblocks _ hfree, rfl, ⟨_, rfl, rfl⟩,
    hpipelines 1 0 rfl hblock⟩
  · exact (hunknown (.reset 3) 3).2 ⟨rfl, by decide⟩
  · exact (hstate 3 .idle).2 (by decide)

end Registry

end CoreFleet
