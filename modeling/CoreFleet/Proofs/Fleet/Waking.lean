import CoreFleet.Proofs.Fleet.Parking
import CoreFleet.Proofs.Registry.Decision
import Mathlib.Data.List.Basic

/-!
# The order in which waiting threads wake up

Several threads may wait for start gates, also for the gate of the same worker. When they are woken
they look at the registry one after another, in any order. A look may make a stopping worker idle,
and then it wakes all that are parked again, so that these look once more. A `Crowd` is a registry
with such threads, and `Crowd.run` what they do in a given order.

`Crowd.settled` says what comes of them, in terms of the registry at the beginning. What a thread is
told in the end is what it would have been told at once (`Registry.verdict`) : looks only calm
workers, and calming changes no verdict (`Registry.verdict_calmed`). Whatever the order, the threads
come to an end after a limited number of looks (`Crowd.left_attend`), and this is what has come
of them then (`waking_confluent`).
-/

namespace CoreFleet

/-- What a thread that waits for a start gate is doing. -/
inductive Stance
  /-- It is about to look at the registry. -/
  | awake
  /-- It is parked, and nobody has woken it since. -/
  | parked
  /-- It has its answer. -/
  | released (a : Registry.Awakening)
  deriving DecidableEq

namespace Stance

/-- What a thread does after a look at the registry. -/
def ofAnswer : Registry.Awakening → Stance
  | .wait => parked
  | a => released a

/-- What a thread does after everybody was woken. -/
def rouse : Stance → Stance
  | parked => awake
  | t => t

/-- The answer, if there is one. -/
def answer? : Stance → Option Registry.Awakening
  | released a => some a
  | _ => none

theorem ofAnswer_ne_awake (a : Registry.Awakening) : ofAnswer a ≠ awake := by
  cases a <;> nofun

theorem eq_wait_of_parked {a : Registry.Awakening} (h : ofAnswer a = parked) : a = .wait := by
  cases a <;> first | rfl | cases h

theorem rouse_ne_parked (t : Stance) : t.rouse ≠ parked := by
  cases t <;> nofun

theorem rouse_cases (t : Stance) : t.rouse = awake ∨ t.rouse = t := by
  cases t
  · exact Or.inr rfl
  · exact Or.inl rfl
  · exact Or.inr rfl

end Stance

/-! ## What a look tells, and what it changes -/

namespace Registry

variable {r : Registry} {p q : Nat → Bool} {i : Nat}

/-- What becomes of a thread that waits for the gate of the worker at `i` : it is told that the
fleet was shut down, or what to run if the worker is running, and otherwise it has no answer yet. -/
def verdict (r : Registry) (i : Nat) : Stance :=
  if r.down then .released .closed
  else match r.slots[i]? with
    | some s => if s.state = .running then .released (.go s.assignment) else .parked
    | none => .parked

/-- The registry after the stopping workers at the positions with `p` have become idle. Nothing
changes once the fleet was shut down. -/
def calmed (r : Registry) (p : Nat → Bool) : Registry :=
  { r with slots := r.slots.mapIdx fun i s =>
      if r.down = false ∧ s.state = .stopping ∧ p i then { s with state := .idle } else s }

theorem getElem?_calmed (r : Registry) (p : Nat → Bool) (i : Nat) :
    (r.calmed p).slots[i]? = r.slots[i]?.map fun s =>
      if r.down = false ∧ s.state = .stopping ∧ p i then { s with state := .idle } else s :=
  List.getElem?_mapIdx

/-- To calm workers is the same as to calm those that can be calmed. -/
theorem calmed_congr (h : ∀ i s, r.slots[i]? = some s → r.down = false → s.state = .stopping →
    p i = q i) : r.calmed p = r.calmed q := by
  refine eq_of_getElem? rfl fun i => ?_
  rw [getElem?_calmed, getElem?_calmed]
  cases hi : r.slots[i]? with
  | none => rfl
  | some s =>
    refine congrArg some (if_congr (and_congr_right fun hdown => and_congr_right fun hstate => ?_)
      rfl rfl)
    rw [h i s hi hdown hstate]

theorem calmed_nowhere (r : Registry) : r.calmed (fun _ => false) = r := by
  refine eq_of_getElem? rfl fun i => ?_
  rw [getElem?_calmed]
  cases r.slots[i]? <;> simp

theorem calmed_calmed (r : Registry) (p q : Nat → Bool) :
    (r.calmed p).calmed q = r.calmed fun i => p i || q i := by
  have hdown : (r.calmed p).down = r.down := rfl
  refine eq_of_getElem? rfl fun i => ?_
  rw [getElem?_calmed, getElem?_calmed, getElem?_calmed, hdown]
  cases r.slots[i]? with
  | none => rfl
  | some s =>
    refine congrArg some ?_
    by_cases hcalm : r.down = false ∧ s.state = .stopping
    · cases hp : p i <;> simp [hcalm]
    · simp only [← and_assoc, hcalm, false_and, if_false]

theorem calmed_of_not (h : ∀ i s, r.slots[i]? = some s → r.down = false → s.state = .stopping →
    p i = false) : r.calmed p = r :=
  (calmed_congr h).trans (calmed_nowhere r)

/-- A look calms the worker at whose gate the thread waits. -/
theorem after_awaken (r : Registry) (i : Nat) :
    (r.awaken i).after = r.calmed fun j => decide (j = i) := by
  cases hi : r.slots[i]? with
  | none =>
    have hafter : (r.awaken i).after = r := by
      rw [awaken, hi]
      split <;> rfl
    rw [hafter, calmed_of_not]
    intro j s hj _ _
    simp only [decide_eq_false_iff_not]
    rintro rfl
    cases hi.symm.trans hj
  | some s =>
    rcases awaken_cases hi with ⟨hdown, ha⟩ | ⟨hdown, hstate, ha⟩ | ⟨hdown, hstate, ha⟩ |
      ⟨hdown, hstate, ha⟩ <;> rw [ha]
    case inr.inr.inl =>
      refine eq_of_getElem? rfl fun j => ?_
      rw [getElem?_update, getElem?_calmed]
      by_cases hij : j = i
      · subst hij
        simp [hi, hdown, hstate]
      · cases r.slots[j]? <;> simp [hij, Ne.symm hij]
    -- the worker is not calmed, and the others are not looked at
    all_goals
      refine (calmed_of_not (r := r) fun j t hj hdown' hstate' => ?_).symm
      rw [decide_eq_false_iff_not]
      rintro rfl
      obtain rfl := Option.some.inj (hi.symm.trans hj)
      simp_all

theorem ofAnswer_awaken (r : Registry) (i : Nat) :
    Stance.ofAnswer (r.awaken i).answer = r.verdict i := by
  cases hi : r.slots[i]? with
  | none => cases hdown : r.down <;> simp [awaken, verdict, hi, hdown, answer, Stance.ofAnswer]
  | some s =>
    rcases awaken_cases hi with ⟨hdown, ha⟩ | ⟨hdown, hstate, ha⟩ | ⟨hdown, hstate, ha⟩ |
      ⟨hdown, hstate | hstate, ha⟩ <;> simp [verdict, answer, Stance.ofAnswer, *]

/-- A worker that becomes idle had no answer to give before, and has none afterwards. -/
theorem verdict_calmed (r : Registry) (p : Nat → Bool) (i : Nat) :
    (r.calmed p).verdict i = r.verdict i := by
  have hdown : (r.calmed p).down = r.down := rfl
  rw [verdict, verdict, getElem?_calmed, hdown]
  cases r.slots[i]? with
  | none => rfl
  | some s =>
    by_cases hcalm : r.down = false ∧ s.state = .stopping ∧ p i
    · simp [hcalm]
    · simp [hcalm]

end Registry

/-! ## Waiting threads -/

/-- A thread that waits for the start gate of a worker. -/
structure Waiter where
  /-- The position of the worker. -/
  position : Nat
  stance : Stance
  deriving DecidableEq

/-- The waiter after everybody was woken. -/
def Waiter.rouse (w : Waiter) : Waiter := { w with stance := w.stance.rouse }

/-- A registry, and the threads that wait for start gates. -/
structure Crowd where
  registry : Registry
  waiters : List Waiter
  deriving DecidableEq

namespace Crowd

/-- The waiters after a look, the one that looks excepted. -/
def notify (C : Crowd) (wakes : Bool) : List Waiter :=
  if wakes then C.waiters.map Waiter.rouse else C.waiters

/-- The waiter with number `k` takes its turn : it looks at the registry, and wakes the others if
the look says so. Only a waiter that is awake has a turn. -/
def attend (C : Crowd) (k : Nat) : Option Crowd :=
  match C.waiters[k]? with
  | some ⟨i, .awake⟩ =>
    let p := C.registry.awaken i
    some ⟨p.after, (C.notify p.wakes).set k ⟨i, .ofAnswer p.answer⟩⟩
  | _ => none

/-- The waiters take turns in the given order. -/
def run (C : Crowd) : List Nat → Option Crowd
  | [] => some C
  | k :: ks => (C.attend k).bind (·.run ks)

/-- No waiter has a turn. -/
def Done (C : Crowd) : Prop := ∀ k, C.attend k = none

/-- The waiters are awake, or parked and right to be so. -/
def Waits (C : Crowd) : Prop :=
  ∀ w ∈ C.waiters, w.stance = .awake ∨
    w.stance = .parked ∧ C.registry.Unmet (.gate w.position)

/-- Somebody waits for the gate of the worker at `i`. -/
def attended (C : Crowd) (i : Nat) : Bool := decide (i ∈ C.waiters.map Waiter.position)

/-- What comes of the crowd : each waiter has its verdict, and unless the fleet was shut down,
stopping workers whose gate somebody waits for have become idle. -/
def settled (C : Crowd) : Crowd where
  registry := C.registry.calmed C.attended
  waiters := C.waiters.map fun w => { w with stance := C.registry.verdict w.position }

/-- How many looks there can still be. Each worker that becomes idle may wake everybody. -/
def left (C : Crowd) : Nat :=
  C.registry.slots.countP (·.state = .stopping) * C.waiters.length +
    C.waiters.countP (·.stance = .awake)

variable {C D E : Crowd} {i k : Nat} {ks : List Nat}

theorem positions_notify (C : Crowd) (wakes : Bool) :
    (C.notify wakes).map Waiter.position = C.waiters.map Waiter.position := by
  cases wakes with
  | true => simp [notify, Waiter.rouse]
  | false => rfl

/-- A waiter that is awake is not changed by being woken. -/
theorem getElem?_notify (h : C.waiters[k]? = some ⟨i, .awake⟩) (wakes : Bool) :
    (C.notify wakes)[k]? = some ⟨i, .awake⟩ := by
  cases wakes with
  | true => simp [notify, h, Waiter.rouse, Stance.rouse]
  | false => exact h

/-- After a turn the waiter has the verdict of the registry. -/
theorem exists_of_attend (h : C.attend k = some D) :
    ∃ i, C.waiters[k]? = some ⟨i, .awake⟩ ∧ D = ⟨(C.registry.awaken i).after,
      (C.notify (C.registry.awaken i).wakes).set k ⟨i, C.registry.verdict i⟩⟩ := by
  unfold attend at h
  split at h
  case h_1 i hi =>
    obtain rfl := Option.some.inj h
    exact ⟨i, hi, by rw [Registry.ofAnswer_awaken]⟩
  case h_2 => cases h

theorem done_iff : C.Done ↔ ∀ w ∈ C.waiters, w.stance ≠ .awake := by
  constructor
  · rintro h ⟨i, t⟩ hw rfl
    obtain ⟨k, hk⟩ := List.mem_iff_getElem?.1 hw
    simpa [attend, hk] using h k
  · intro h k
    cases hk : C.attend k with
    | none => rfl
    | some D =>
      obtain ⟨i, hi, -⟩ := exists_of_attend hk
      exact absurd rfl (h _ (List.mem_of_getElem? hi))

/-- Waiters stay with their workers. -/
theorem positions_attend (h : C.attend k = some D) :
    D.waiters.map Waiter.position = C.waiters.map Waiter.position := by
  obtain ⟨i, hi, rfl⟩ := exists_of_attend h
  have hpos : (C.waiters.map Waiter.position)[k]? = some i := by rw [List.getElem?_map, hi]; rfl
  obtain ⟨hlt, hk⟩ := List.getElem?_eq_some_iff.1 hpos
  rw [List.map_set, positions_notify]
  exact hk ▸ List.set_getElem_self hlt

theorem length_attend (h : C.attend k = some D) : D.waiters.length = C.waiters.length := by
  simpa using congrArg List.length (positions_attend h)

/-! ## The end does not depend on the order -/

/-- The crowd `D` has come of `C` : of the workers that somebody waits for some have become idle,
and the waiters that have looked for the last time have the verdict that `C` gives. -/
structure Underway (C D : Crowd) : Prop where
  calmed : ∃ p : Nat → Bool, (∀ i, p i → C.attended i) ∧ D.registry = C.registry.calmed p
  positions : D.waiters.map Waiter.position = C.waiters.map Waiter.position
  stance : ∀ w ∈ D.waiters, w.stance = .awake ∨ w.stance = C.registry.verdict w.position
  parked : ∀ w ∈ D.waiters, w.stance = .parked → D.registry.Unmet (.gate w.position)

theorem verdict_of_unmet {r : Registry} (h : r.Unmet (.gate i)) : r.verdict i = .parked := by
  obtain ⟨hdown, hstate⟩ := h
  rw [Registry.verdict, hdown]
  cases hi : r.slots[i]? with
  | none => rfl
  | some s => rcases hstate s hi with hs | hs <;> simp [hs]

theorem Waits.underway (h : C.Waits) : Underway C C where
  calmed := ⟨fun _ => false, nofun, C.registry.calmed_nowhere.symm⟩
  positions := rfl
  stance w hw := (h w hw).imp_right fun ⟨hparked, hunmet⟩ =>
    hparked.trans (verdict_of_unmet hunmet).symm
  parked w hw hparked := by
    rcases h w hw with hawake | ⟨-, hunmet⟩
    · cases hparked.symm.trans hawake
    · exact hunmet

namespace Underway

theorem verdict_eq (h : Underway C D) (i : Nat) : D.registry.verdict i = C.registry.verdict i := by
  obtain ⟨p, -, hD⟩ := h.calmed
  rw [hD, Registry.verdict_calmed]

/-- A turn keeps all that is known of the crowd. -/
theorem attend (h : Underway C D) (hk : D.attend k = some E) : Underway C E := by
  have hpositions := (positions_attend hk).trans h.positions
  obtain ⟨i, hi, rfl⟩ := exists_of_attend hk
  have hattended : C.attended i := by
    rw [attended, ← h.positions]
    exact decide_eq_true (List.mem_map.2 ⟨_, List.mem_of_getElem? hi, rfl⟩)
  refine ⟨?_, hpositions, fun w hw => ?_, fun w hw hparked => ?_⟩
  · obtain ⟨p, hp, hD⟩ := h.calmed
    refine ⟨fun j => p j || decide (j = i), fun j hj => ?_, ?_⟩
    · rcases Bool.or_eq_true_iff.1 hj with hj | hj
      · exact hp j hj
      · exact of_decide_eq_true hj ▸ hattended
    · rw [Registry.after_awaken, hD, Registry.calmed_calmed]
  · rcases List.mem_or_eq_of_mem_set hw with hw | rfl
    · cases hwakes : (D.registry.awaken i).wakes with
      | false =>
        rw [hwakes] at hw
        exact h.stance w hw
      | true =>
        rw [hwakes] at hw
        obtain ⟨v, hv, rfl⟩ := List.mem_map.1 hw
        rcases v.stance.rouse_cases with hawake | hsame
        · exact Or.inl hawake
        · exact (h.stance v hv).imp hsame.trans hsame.trans
    · exact Or.inr (h.verdict_eq i)
  · rcases List.mem_or_eq_of_mem_set hw with hw | rfl
    · cases hwakes : (D.registry.awaken i).wakes with
      | false =>
        rw [hwakes] at hw
        exact (h.parked w hw hparked).of_alike ((D.registry.quiet_awaken i).alike hwakes)
      | true =>
        rw [hwakes] at hw
        obtain ⟨v, -, rfl⟩ := List.mem_map.1 hw
        exact absurd hparked v.stance.rouse_ne_parked
    · rw [← Registry.ofAnswer_awaken] at hparked
      exact Registry.unmet_of_awaken (Stance.eq_wait_of_parked hparked)

theorem run (h : Underway C D) (hrun : D.run ks = some E) : Underway C E := by
  induction ks generalizing D with
  | nil => exact Option.some.inj hrun ▸ h
  | cons k ks ih =>
    obtain ⟨D', hD', hrun⟩ := Option.bind_eq_some_iff.1 hrun
    exact ih (h.attend hD') hrun

/-- When no waiter has a turn, what has come of the crowd is what `C` tells. -/
theorem eq_settled (h : Underway C D) (hdone : D.Done) : D = C.settled := by
  have hstance (w : Waiter) (hw : w ∈ D.waiters) : w.stance = C.registry.verdict w.position :=
    (h.stance w hw).resolve_left (done_iff.1 hdone w hw)
  obtain ⟨p, hp, hD⟩ := h.calmed
  have hregistry : D.registry = C.registry.calmed C.attended := by
    rw [hD]
    refine Registry.calmed_congr fun i s hi hdown hstate => ?_
    rw [Bool.eq_iff_iff]
    refine ⟨hp i, fun hattended => ?_⟩
    -- the waiter of a stopping worker is parked, so that the worker does not stop any more
    rw [attended, ← h.positions] at hattended
    obtain ⟨w, hw, rfl⟩ := List.mem_map.1 (of_decide_eq_true hattended)
    have hparked : w.stance = .parked := by
      rw [hstance w hw, Registry.verdict, hdown, hi]
      simp [hstate]
    by_contra hnot
    have hsame : D.registry.slots[w.position]? = some s := by
      rw [hD, Registry.getElem?_calmed, hi]
      simp [hnot]
    rcases (h.parked w hw hparked).2 s hsame with hs | hs
    · cases hstate.symm.trans hs
    · cases hstate.symm.trans hs
  have hwaiters : D.waiters =
      C.waiters.map fun w => { w with stance := C.registry.verdict w.position } := by
    calc D.waiters
        = D.waiters.map fun w => ⟨w.position, C.registry.verdict w.position⟩ := by
          refine (List.map_id _).symm.trans (List.map_congr_left fun w hw => ?_)
          rw [← hstance w hw]
          rfl
      _ = (D.waiters.map Waiter.position).map fun i => ⟨i, C.registry.verdict i⟩ := by
          rw [List.map_map]
          rfl
      _ = (C.waiters.map Waiter.position).map fun i => ⟨i, C.registry.verdict i⟩ := by
          rw [h.positions]
      _ = _ := by
          rw [List.map_map]
          rfl
  cases D
  exact congrArg₂ Crowd.mk hregistry hwaiters

end Underway

/-! ## There is an end -/

theorem countP_set_add_one {α : Type} {l : List α} {p : α → Bool} {k : Nat} {a b : α}
    (hk : l[k]? = some a) (ha : p a = true) (hb : p b = false) :
    (l.set k b).countP p + 1 = l.countP p := by
  obtain ⟨hlt, rfl⟩ := List.getElem?_eq_some_iff.1 hk
  have hpos : 0 < l.countP p := List.countP_pos_iff.2 ⟨_, List.getElem_mem hlt, ha⟩
  rw [List.countP_set hlt, ha, hb]
  simp only [if_true, Bool.false_eq_true, if_false]
  omega

/-- A look that wakes nobody changes nothing, and any other makes a stopping worker idle. -/
theorem stopping_awaken (r : Registry) (i : Nat) :
    (r.awaken i).wakes = false ∧ (r.awaken i).after = r ∨
    (r.awaken i).wakes = true ∧
      (r.awaken i).after.slots.countP (·.state = .stopping) + 1 =
        r.slots.countP (·.state = .stopping) := by
  cases hi : r.slots[i]? with
  | none =>
    left
    rw [Registry.awaken, hi]
    split <;> exact ⟨rfl, rfl⟩
  | some s =>
    rcases Registry.awaken_cases hi with ⟨-, ha⟩ | ⟨-, -, ha⟩ | ⟨-, hstate, ha⟩ | ⟨-, -, ha⟩ <;>
      rw [ha]
    case inr.inr.inl =>
      refine Or.inr ⟨rfl, ?_⟩
      rw [Registry.update_eq_set hi]
      exact countP_set_add_one hi (decide_eq_true hstate) rfl
    all_goals exact Or.inl ⟨rfl, rfl⟩

/-- A turn leaves fewer looks : the waiter itself is not awake any more, and it wakes the others
only if it has made a stopping worker idle. -/
theorem left_attend (h : C.attend k = some D) : D.left < C.left := by
  have hlength := length_attend h
  obtain ⟨i, hi, rfl⟩ := exists_of_attend h
  have hawake := countP_set_add_one (p := fun w => decide (w.stance = .awake))
    (b := ⟨i, C.registry.verdict i⟩) (getElem?_notify hi (C.registry.awaken i).wakes)
    (decide_eq_true rfl) (by
      rw [← Registry.ofAnswer_awaken]
      exact decide_eq_false (Stance.ofAnswer_ne_awake _))
  simp only [left] at hlength ⊢
  rw [hlength]
  rcases stopping_awaken C.registry i with ⟨hwakes, hafter⟩ | ⟨hwakes, hstopping⟩
  · rw [hwakes] at hawake ⊢
    rw [hafter]
    have hnotify : C.notify false = C.waiters := rfl
    rw [hnotify] at hawake ⊢
    omega
  · rw [hwakes] at hawake ⊢
    have hall : (C.notify true).countP (·.stance = .awake) ≤ C.waiters.length := by
      simpa [notify] using List.countP_le_length (l := C.notify true)
    rw [← hstopping, Nat.succ_mul]
    omega

theorem length_add_left_le (hrun : C.run ks = some D) : ks.length + D.left ≤ C.left := by
  induction ks generalizing C with
  | nil =>
    cases hrun
    simp
  | cons k ks ih =>
    obtain ⟨C', hC', hrun⟩ := Option.bind_eq_some_iff.1 hrun
    have hless := left_attend hC'
    have hmore := ih hrun
    rw [List.length_cons]
    omega

/-- The waiters may take turns until no one has a turn. -/
theorem exists_run_done (C : Crowd) : ∃ ks D, C.run ks = some D ∧ D.Done := by
  induction hn : C.left using Nat.strongRecOn generalizing C with
  | _ n ih =>
    subst hn
    by_cases hdone : C.Done
    · exact ⟨[], C, rfl, hdone⟩
    · obtain ⟨k, hk⟩ := not_forall.1 hdone
      obtain ⟨C', hC'⟩ := Option.ne_none_iff_exists'.1 hk
      obtain ⟨ks, D, hrun, hD⟩ := ih C'.left (left_attend hC') C' rfl
      exact ⟨k :: ks, D, by rw [run, hC']; exact hrun, hD⟩

theorem done_settled (C : Crowd) : C.settled.Done := by
  rw [done_iff]
  intro w hw
  obtain ⟨v, -, rfl⟩ := List.mem_map.1 hw
  rw [← Registry.ofAnswer_awaken]
  exact Stance.ofAnswer_ne_awake _

/-! ## One round -/

/-- The answers that the waiters have, in order. -/
def answers (C : Crowd) : List (Nat × Registry.Awakening) :=
  C.waiters.filterMap fun w => w.stance.answer?.map fun a => (w.position, a)

/-- The positions of the waiters that have no answer. -/
def unanswered (C : Crowd) : List Nat :=
  (C.waiters.filter fun w => w.stance.answer?.isNone).map Waiter.position

theorem wakeAll_eq (r : Registry) (positions : List Nat) :
    r.wakeAll positions =
      (positions.filterMap fun i => (r.verdict i).answer?.map fun a => (i, a),
        positions.filter fun i => (r.verdict i).answer?.isNone,
        r.calmed fun i => decide (i ∈ positions)) := by
  induction positions generalizing r with
  | nil => simp [Registry.wakeAll, r.calmed_nowhere]
  | cons i positions ih =>
    have hverdict := r.ofAnswer_awaken i
    have hcalmed : (r.calmed fun j => decide (j = i)).calmed (fun j => decide (j ∈ positions)) =
        r.calmed fun j => decide (j ∈ i :: positions) := by
      rw [Registry.calmed_calmed]
      simp only [List.mem_cons, Bool.decide_or]
    rw [Registry.wakeAll, ih, Registry.after_awaken]
    simp only [Registry.verdict_calmed, hcalmed]
    cases ha : (r.awaken i).answer <;> rw [ha] at hverdict <;>
      simp [← hverdict, Stance.ofAnswer, Stance.answer?]

/-- Whatever the order in which waiting threads look at the registry, they come to an end, and then
every one of them has its verdict, the stopping workers whose gate somebody waits for are idle, and
nothing else has changed. So it is also if each thread looks once, in the order of the list. -/
theorem waking_confluent (h : C.Waits) :
    (∀ ks D, C.run ks = some D →
      ks.length ≤ C.left ∧ (D.Done ↔ D = C.settled) ∧ ∃ ks', D.run ks' = some C.settled) ∧
    C.registry.wakeAll (C.waiters.map Waiter.position) =
      (C.settled.answers, C.settled.unanswered, C.settled.registry) := by
  refine ⟨fun ks D hrun => ?_, ?_⟩
  · have hD : Underway C D := h.underway.run hrun
    refine ⟨Nat.le_of_add_right_le (length_add_left_le hrun), ⟨hD.eq_settled, ?_⟩, ?_⟩
    · rintro rfl
      exact C.done_settled
    · obtain ⟨ks', E, hrun', hdone⟩ := D.exists_run_done
      exact ⟨ks', (hD.run hrun').eq_settled hdone ▸ hrun'⟩
  · rw [wakeAll_eq]
    simp only [answers, unanswered, settled, List.filterMap_map, List.filter_map, List.map_map,
      Function.comp_def]
    rfl

/-- Two threads wait for a worker that was asked to stop before its loop ran, one for a running
worker, and one has found its worker idle and is parked. -/
def mixed : Crowd where
  registry := { slots := [
    { lcore := .worker 1, state := .running, assignment := some (.block ⟨0, "probe"⟩),
      flag := true },
    { lcore := .worker 2, state := .stopping, assignment := some (.block ⟨1, "sink"⟩) },
    { lcore := .worker 3 }] }
  waiters := [⟨1, .awake⟩, ⟨1, .awake⟩, ⟨0, .awake⟩, ⟨2, .parked⟩]

/-- Whichever thread finds the stopping worker first, it wakes the one that is parked, and the end
is the same. -/
theorem waking_confluent_mixed :
    mixed.Waits ∧ mixed.run [1, 3, 0, 2] = some mixed.settled ∧
    mixed.run [2, 0, 1, 3] = some mixed.settled := by
  have hwaits : mixed.Waits := by
    intro w hw
    simp only [mixed, List.mem_cons, List.not_mem_nil, or_false] at hw
    rcases hw with rfl | rfl | rfl | rfl
    case inr.inr.inr =>
      refine Or.inr ⟨rfl, rfl, fun s hs => Or.inl ?_⟩
      cases hs
      rfl
    all_goals exact Or.inl rfl
  obtain ⟨hruns, -⟩ := waking_confluent hwaits
  have hend {ks : List Nat} {D : Crowd} (hrun : mixed.run ks = some D)
      (hdone : ∀ w ∈ D.waiters, w.stance ≠ .awake) : mixed.run ks = some mixed.settled :=
    hrun.trans (congrArg some ((hruns ks D hrun).2.1.1 (done_iff.2 hdone)))
  exact ⟨hwaits, hend rfl (by decide), hend rfl (by decide)⟩

end Crowd

end CoreFleet
