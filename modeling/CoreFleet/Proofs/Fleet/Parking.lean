import CoreFleet.Proofs.Fleet.Effect
import CoreFleet.Proofs.Registry.Refusal
import Mathlib.Logic.Function.Basic

/-!
# Parked threads

A thread that waits on the registry looks at it, and parks if it has to wait on. It stays
parked until somebody wakes all parked threads, or its time is over. A `Lobby` is a fleet
together with the threads that are parked or about to look : the threads of the workers at
their start gates, and any number of guests, which wait for a gate, for a state of a worker, or
until no worker is stopping. A guest may also wait for the gate of a worker whose own thread
waits there.

An operation that wakes nobody changes no state and no mark of a shutdown
(`Registry.quiet_perform`), and a thread that parks leaves a registry in which it has nothing to
do (`Registry.unmet_of_look`), also if its look has changed the registry. Hence no parked thread
misses its turn : as long as nobody has woken it, what it waits for has not happened
(`no_wakeup_lost`).
-/

namespace CoreFleet

namespace Registry

variable {r r' : Registry} {op : Operation} {w : Wish} {i id : Nat} {s : Slot}

/-! ## What a wait depends on -/

/-- What threads wait for has not happened : a thread with this wish has to wait on. -/
def Unmet (r : Registry) : Wish → Prop
  | .gate i => r.down = false ∧ ∀ s, r.slots[i]? = some s → s.state = .idle ∨ s.state = .error
  | .state id state => ∃ i s, r.index? id = some i ∧ r.slots[i]? = some s ∧ s.state ≠ state
  | .settled => ∃ s ∈ r.slots, s.state = .stopping

/-- The workers and their states. -/
def faces (r : Registry) : List (Nat × State) := r.slots.map fun s => (s.lcore.id, s.state)

/-- Nobody who waits can tell the two registries apart. -/
structure Alike (r r' : Registry) : Prop where
  down : r'.down = r.down
  faces : r'.faces = r.faces

theorem Alike.refl (r : Registry) : r.Alike r := ⟨rfl, rfl⟩

theorem Alike.symm (h : r.Alike r') : r'.Alike r := ⟨h.down.symm, h.faces.symm⟩

theorem Alike.exists_slot (h : r.Alike r') (hs : r.slots[i]? = some s) :
    ∃ s', r'.slots[i]? = some s' ∧ s'.state = s.state := by
  have hface : r'.faces[i]? = some (s.lcore.id, s.state) := by
    rw [h.faces, Registry.faces, List.getElem?_map, hs]
    rfl
  rw [Registry.faces, List.getElem?_map, Option.map_eq_some_iff] at hface
  obtain ⟨s', hs', heq⟩ := hface
  exact ⟨s', hs', (Prod.mk.inj heq).2⟩

theorem Alike.index? (h : r.Alike r') (id : Nat) : r'.index? id = r.index? id := by
  have hfaces (q : Registry) : q.index? id = q.faces.findIdx? (·.1 = id) := by
    rw [Registry.faces, List.findIdx?_map]
    rfl
  rw [hfaces, hfaces, h.faces]

/-- Whether a thread has to wait on depends on the states and the mark of a shutdown alone. -/
theorem Unmet.of_alike (hw : r.Unmet w) (h : r.Alike r') : r'.Unmet w := by
  cases w with
  | gate i =>
    refine ⟨h.down.trans hw.1, fun s' hs' => ?_⟩
    obtain ⟨s, hs, hstate⟩ := h.symm.exists_slot hs'
    exact hstate ▸ hw.2 s hs
  | state id state =>
    obtain ⟨i, s, hid, hs, hne⟩ := hw
    obtain ⟨s', hs', hstate⟩ := h.exists_slot hs
    exact ⟨i, s', (h.index? id).trans hid, hs', hstate ▸ hne⟩
  | settled =>
    obtain ⟨s, hs, hstop⟩ := hw
    obtain ⟨i, hi⟩ := List.mem_iff_getElem?.1 hs
    obtain ⟨s', hs', hstate⟩ := h.exists_slot hi
    exact ⟨s', List.mem_of_getElem? hs', hstate.trans hstop⟩

/-! ## What happens without waking anybody -/

theorem faces_update {f : Slot → Slot} (r : Registry) (k : Nat)
    (hf : ∀ s, (f s).lcore = s.lcore ∧ (f s).state = s.state) : (r.update k f).faces = r.faces := by
  refine List.ext_getElem? fun i => ?_
  simp only [faces, List.getElem?_map, getElem?_update]
  cases r.slots[i]? with
  | none => rfl
  | some s => by_cases hki : k = i <;> simp [hki, hf s]

/-- Unless the reply wakes the parked threads, nothing has changed that anybody waits for. -/
structure Quiet {α : Type} (r : Registry) (p : Reply α) : Prop where
  alike : p.wakes = false → r.Alike p.after

theorem quiet_answer {α : Type} (r : Registry) (a : α) : r.Quiet (r.answer a) := ⟨fun _ => .refl r⟩

theorem quiet_of_wakes {α : Type} (r r' : Registry) (a : α) : r.Quiet ⟨a, r', true⟩ := ⟨nofun⟩

theorem Quiet.map {α β : Type} {p : Reply α} (h : r.Quiet p) (f : α → β) : r.Quiet (p.map f) :=
  ⟨h.alike⟩

theorem quiet_assign (r : Registry) (id : Nat) (a : Assignment) (held : Slot → Bool) :
    r.Quiet (r.assign id a held) := by
  unfold assign
  repeat' split
  case h_2 => exact ⟨fun _ => ⟨rfl, r.faces_update _ fun s => ⟨rfl, rfl⟩⟩⟩
  all_goals exact quiet_answer ..

/-- An operation wakes the parked threads whenever it changes what they may wait for. -/
theorem quiet_perform (r : Registry) (op : Operation) : r.Quiet (op.perform r) := by
  cases op with
  | assignPipeline | assignBlock => exact (quiet_assign ..).map _
  | clearPipeline id =>
    refine Quiet.map ?_ _
    unfold clearPipeline
    repeat' split
    · exact quiet_of_wakes ..
    · exact quiet_answer ..
    · exact quiet_answer ..
  | clearBlock b =>
    have hclear : r.Quiet (r.clearBlock b) := by
      unfold clearBlock
      split
      · exact quiet_of_wakes ..
      · exact quiet_answer ..
    exact ⟨hclear.alike⟩
  | reset id =>
    refine Quiet.map ?_ _
    unfold reset
    repeat' split
    · exact quiet_of_wakes ..
    · exact quiet_answer ..
    · exact quiet_answer ..
    · exact quiet_answer ..
  | start =>
    refine Quiet.map ?_ _
    unfold start
    split
    · exact quiet_answer ..
    · exact quiet_of_wakes ..
  | state | isRunning | info | snapshot | workers => exact quiet_answer ..
  | stop | finish | retire | shutdown => exact quiet_of_wakes ..

theorem quiet_awaken (r : Registry) (i : Nat) : r.Quiet (r.awaken i) := by
  unfold awaken
  repeat' split
  case h_2 => exact quiet_of_wakes ..
  all_goals exact quiet_answer ..

theorem quiet_look (r : Registry) (w : Wish) : r.Quiet (r.look w) := by
  unfold look
  repeat' split
  · exact ⟨(r.quiet_awaken _).alike⟩
  · exact quiet_answer ..
  · exact quiet_answer ..
  · exact quiet_answer ..

/-! ## What a thread leaves that waits on -/

theorem unmet_of_awaken (h : (r.awaken i).answer = .wait) : (r.awaken i).after.Unmet (.gate i) := by
  cases hi : r.slots[i]? with
  | none =>
    cases hdown : r.down with
    | true => simp [awaken, hdown, answer] at h
    | false => simp [awaken, hdown, hi, answer, Unmet]
  | some s =>
    rcases awaken_cases hi with ⟨-, ha⟩ | ⟨-, -, ha⟩ | ⟨hdown, -, ha⟩ | ⟨hdown, hstate, ha⟩ <;>
      rw [ha] at h ⊢
    · cases h
    · cases h
    · refine ⟨hdown, fun t ht => Or.inl ?_⟩
      obtain rfl : { s with state := .idle } = t := by simpa [getElem?_update, hi] using ht
      rfl
    · refine ⟨hdown, fun t ht => ?_⟩
      obtain rfl : s = t := Option.some.inj (hi.symm.trans ht)
      exact hstate

/-- A thread that finds that it has to wait on is right, also if its look has changed the
registry. -/
theorem unmet_of_look (h : (r.look w).answer = .ok false) : (r.look w).after.Unmet w := by
  cases w with
  | gate i => exact unmet_of_awaken (by simpa [look] using h)
  | state id state =>
    rcases r.lookup_cases id with ⟨hid, -⟩ | ⟨i, s, hid, hs, -⟩
    · simp [look, hid, refuse, answer] at h
    · have hne : s.state ≠ state := by simpa [look, hid, answer, inState, hs] using h
      simpa [look, hid, answer] using ⟨i, s, hid, hs, hne⟩
  | settled =>
    have hsettled : r.settled = false := by simpa [look, answer] using h
    simpa [look, answer, settled, Unmet] using hsettled

theorem length_look (r : Registry) (w : Wish) :
    (r.look w).after.slots.length = r.slots.length := by
  have hids : (r.look w).after.ids = r.ids := by
    cases w with
    | gate i => exact r.ids_awaken i
    | state id state => simp only [look]; split <;> rfl
    | settled => rfl
  simpa [ids] using congrArg List.length hids

end Registry

/-! ## Who is parked -/

namespace Fleet

/-- The event wakes the threads that are parked on the registry. -/
def wakes (f : Fleet) : Event → Bool
  | .operate op _ => (op.perform f.registry).wakes
  | .shutdown => (Operation.shutdown.perform f.registry).wakes
  | .move i m =>
    match f.phases[i]?, m with
    | some .waiting, .look => (f.registry.awaken i).wakes
    | some (.finishing failure), .report => (f.registry.finish i failure).wakes
    | some .leaving, .exit => (f.registry.retire i).wakes
    | _, _ => false
  | .release _ => false

/-- The worker whose thread has to wait on after the event, a look at the registry. -/
def parks? (f : Fleet) : Event → Option Nat
  | .move i .look =>
    if f.phases[i]? = some .waiting ∧ (f.registry.awaken i).answer = .wait then some i else none
  | _ => none

variable {f : Fleet} {e : Event} {i k : Nat} {m : Move}

/-- An event that wakes nobody changes nothing that anybody waits for. -/
theorem alike_step (h : f.wakes e = false) : f.registry.Alike (f.step e).registry := by
  cases e with
  | operate op _ => exact (Registry.quiet_perform f.registry op).alike h
  | shutdown => exact (Registry.quiet_perform f.registry .shutdown).alike h
  | release u => exact .refl _
  | move i m =>
    cases hm : f.move i m with
    | none => simpa [step, hm] using Registry.Alike.refl _
    | some g =>
      simp only [step, hm, Option.getD_some]
      unfold move at hm
      split at hm <;> rename_i heq
      case h_8 => simp at hm
      all_goals obtain rfl := Option.some.inj hm
      case h_1 => exact (f.registry.quiet_awaken i).alike (by simpa [wakes, heq] using h)
      case h_6 | h_7 => simp [wakes, heq, Registry.finish, Registry.retire] at h
      all_goals exact .refl _

/-- A waiting thread stays where it is until it looks at the registry. -/
theorem waiting_step (hp : f.phases[i]? = some .waiting) (he : ∀ m, e ≠ .move i m) :
    (f.step e).phases[i]? = some .waiting := by
  cases e with
  | operate | shutdown | release => exact hp
  | move k m =>
    cases hm : f.move k m with
    | none => simpa [step, hm] using hp
    | some g =>
      have hki : k ≠ i := by
        rintro rfl
        exact he m rfl
      simpa [step, hm, (getElem?_move_ne hm hki).2] using hp

/-- A thread that parks waits for its start gate, and has to wait on. -/
theorem of_parks? (h : f.parks? e = some i) :
    (f.step e).phases[i]? = some .waiting ∧ (f.step e).registry.Unmet (.gate i) := by
  unfold parks? at h
  split at h
  case h_2 => cases h
  case h_1 j =>
    split at h
    case isFalse => cases h
    case isTrue hlook =>
      obtain rfl := Option.some.inj h
      obtain ⟨hp, hwait⟩ := hlook
      have hlt := (List.getElem?_eq_some_iff.1 hp).1
      have hmove : f.move j .look = some { f with
          registry := (f.registry.awaken j).after, phases := f.phases.set j .waiting } := by
        simp [move, hp, hwait, afterLook]
      simp only [step, hmove, Option.getD_some]
      exact ⟨List.getElem?_set_self hlt, Registry.unmet_of_awaken hwait⟩

end Fleet

/-- Where a thread stands that is no worker's. -/
inductive Guest
  /-- It waits for nothing. -/
  | away
  /-- It is about to look at the registry, for the last time if its time is over. -/
  | awake (w : Wish) (late : Bool)
  /-- It is parked, and nobody has woken it since. -/
  | parked (w : Wish)

/-- Where a thread stands after a look at the registry. -/
def Guest.ofAnswer (w : Wish) : Except Error Bool → Guest
  | .ok false => parked w
  | _ => away

theorem Guest.of_parked {w v : Wish} {a : Except Error Bool} (h : ofAnswer w a = parked v) :
    a = .ok false ∧ w = v := by
  unfold ofAnswer at h
  split at h
  · exact ⟨rfl, parked.inj h⟩
  · cases h

/-- A fleet, and who is parked on its registry. -/
structure Lobby where
  fleet : Fleet
  /-- The workers whose threads are parked and have not been woken since. -/
  parked : Nat → Bool
  guests : Nat → Guest

/-- What may happen in a lobby. -/
inductive Lobby.Act
  | fleet (e : Event)
  /-- A guest begins to wait, and looks at the registry. -/
  | come (k : Nat) (w : Wish)
  /-- A guest that is awake looks at the registry. -/
  | look (k : Nat)
  /-- The time of a parked guest is over. -/
  | expire (k : Nat)
  /-- A parked guest wakes up though nobody has woken it. -/
  | stir (k : Nat)
  /-- The thread of a worker that is parked wakes up though nobody has woken it. -/
  | stirWorker (i : Nat)

namespace Lobby

/-- A fleet of idle workers, with nobody parked. -/
def ofLcores (tuning : Tuning) (lcores : List Lcore) : Lobby :=
  ⟨.ofLcores tuning lcores, fun _ => false, fun _ => .away⟩

/-- Wakes everybody who is parked. -/
def rouse (L : Lobby) : Lobby where
  fleet := L.fleet
  parked _ := false
  guests k := match L.guests k with
    | .parked w => .awake w false
    | g => g

/-- Wakes everybody who is parked, if the critical section says so. -/
def notify (L : Lobby) (wakes : Bool) : Lobby := if wakes then L.rouse else L

/-- The event would be a move of a thread that is parked. -/
def holdsUp (L : Lobby) : Event → Bool
  | .move i _ => L.parked i
  | _ => false

/-- A guest looks at the registry. It parks if it has to wait on, and leaves otherwise. -/
def attend (L : Lobby) (k : Nat) (w : Wish) : Lobby :=
  let p := L.fleet.registry.look w
  let L' := L.notify p.wakes
  { L' with
    fleet := { L.fleet with registry := p.after }
    guests := Function.update L'.guests k (.ofAnswer w p.answer) }

/-- An event of the fleet. A thread that looks in vain parks after it has woken the others. -/
def proceed (L : Lobby) (e : Event) : Lobby :=
  let L' := L.notify (L.fleet.wakes e)
  { L' with
    fleet := L.fleet.step e
    parked := fun i => L.fleet.parks? e = some i || L'.parked i }

/-- The lobby after an act. What cannot happen leaves it as it is. -/
def step (L : Lobby) : Act → Lobby
  | .fleet e => if L.holdsUp e then L else L.proceed e
  | .come k w =>
    match L.guests k with
    | .away => L.attend k w
    | _ => L
  | .look k =>
    match L.guests k with
    | .awake w false => L.attend k w
    | .awake _ true => { L with guests := Function.update L.guests k .away }
    | _ => L
  | .expire k =>
    -- nobody waits for a gate for a limited time
    match L.guests k with
    | .parked (.gate _) => L
    | .parked w => { L with guests := Function.update L.guests k (.awake w true) }
    | _ => L
  | .stir k =>
    match L.guests k with
    | .parked w => { L with guests := Function.update L.guests k (.awake w false) }
    | _ => L
  | .stirWorker i => { L with parked := Function.update L.parked i false }

/-- Some sequence of acts leads to this lobby. -/
inductive Reachable (tuning : Tuning) (lcores : List Lcore) : Lobby → Prop
  | start : Reachable tuning lcores (ofLcores tuning lcores)
  | step {L : Lobby} (h : Reachable tuning lcores L) (a : Act) : Reachable tuning lcores (L.step a)

theorem Reachable.foldl {tuning : Tuning} {lcores : List Lcore} :
    ∀ (acts : List Act) {L : Lobby}, Reachable tuning lcores L →
      Reachable tuning lcores (acts.foldl Lobby.step L)
  | [], _, h => h
  | a :: acts, _, h => foldl acts (h.step a)

/-! ## Nobody is parked who could go on -/

/-- Whoever is parked has to wait on. -/
structure Sound (L : Lobby) : Prop where
  length : L.fleet.phases.length = L.fleet.registry.slots.length
  worker : ∀ i, L.parked i = true →
    L.fleet.phases[i]? = some .waiting ∧ L.fleet.registry.Unmet (.gate i)
  guest : ∀ k w, L.guests k = .parked w → L.fleet.registry.Unmet w

variable {L : Lobby} {r : Registry} {wakes : Bool} {tuning : Tuning} {lcores : List Lcore}

theorem parked_of_notify {i : Nat} (h : (L.notify wakes).parked i = true) :
    L.parked i = true ∧ wakes = false := by
  cases wakes with
  | true => cases h
  | false => exact ⟨h, rfl⟩

theorem guests_of_notify {k : Nat} {w : Wish} (h : (L.notify wakes).guests k = .parked w) :
    L.guests k = .parked w ∧ wakes = false := by
  cases wakes with
  | true =>
    simp only [notify, if_pos, rouse] at h
    split at h
    · cases h
    · rename_i hnot
      exact absurd h (hnot w)
  | false => exact ⟨h, rfl⟩

theorem Sound.proceed (h : L.Sound) {e : Event} (he : L.holdsUp e = false) :
    (L.proceed e).Sound where
  length := by
    obtain ⟨hslots, hphases⟩ := L.fleet.length_step e
    exact hphases.trans (h.length.trans hslots.symm)
  worker i hi := by
    simp only [Lobby.proceed, Bool.or_eq_true, decide_eq_true_eq] at hi
    rcases hi with hparks | hi
    · exact Fleet.of_parks? hparks
    · obtain ⟨hparked, hquiet⟩ := parked_of_notify hi
      obtain ⟨hp, hunmet⟩ := h.worker i hparked
      refine ⟨Fleet.waiting_step hp fun m hm => ?_, hunmet.of_alike (Fleet.alike_step hquiet)⟩
      simp [hm, holdsUp, hparked] at he
  guest k w hk := by
    obtain ⟨hparked, hquiet⟩ := guests_of_notify hk
    exact (h.guest k w hparked).of_alike (Fleet.alike_step hquiet)

theorem Sound.attend (h : L.Sound) (k : Nat) (w : Wish) : (L.attend k w).Sound where
  length := h.length.trans (L.fleet.registry.length_look w).symm
  worker i hi := by
    obtain ⟨hparked, hquiet⟩ := parked_of_notify hi
    obtain ⟨hp, hunmet⟩ := h.worker i hparked
    exact ⟨hp, hunmet.of_alike ((L.fleet.registry.quiet_look w).alike hquiet)⟩
  guest j v hj := by
    simp only [Lobby.attend, Function.update_apply] at hj
    split at hj
    case isTrue =>
      -- the guest that has looked just now
      obtain ⟨hwait, rfl⟩ := Guest.of_parked hj
      exact Registry.unmet_of_look hwait
    case isFalse =>
      obtain ⟨hparked, hquiet⟩ := guests_of_notify hj
      exact (h.guest j v hparked).of_alike ((L.fleet.registry.quiet_look w).alike hquiet)

/-- A guest may leave the place where it is parked at any time. -/
theorem Sound.update (h : L.Sound) (k : Nat) {g : Guest} (hg : ∀ w, g ≠ .parked w) :
    Sound { L with guests := Function.update L.guests k g } where
  length := h.length
  worker := h.worker
  guest j w hj := by
    simp only [Function.update_apply] at hj
    split at hj
    · exact absurd hj (hg w)
    · exact h.guest j w hj

theorem Sound.updateWorker (h : L.Sound) (i : Nat) :
    Sound { L with parked := Function.update L.parked i false } where
  length := h.length
  worker j hj := by
    simp only [Function.update_apply] at hj
    split at hj
    · cases hj
    · exact h.worker j hj
  guest := h.guest

/-- No act leaves anybody parked who could go on. -/
theorem Sound.step (h : L.Sound) (a : Act) : (L.step a).Sound := by
  cases a with
  | fleet e =>
    simp only [Lobby.step]
    split
    case isTrue => exact h
    case isFalse he => exact h.proceed (Bool.eq_false_iff.2 he)
  | come k w =>
    simp only [Lobby.step]
    split
    · exact h.attend k w
    · exact h
  | look k =>
    simp only [Lobby.step]
    split
    · exact h.attend k _
    · exact h.update k nofun
    · exact h
  | expire k =>
    simp only [Lobby.step]
    split
    · exact h
    · exact h.update k nofun
    · exact h
  | stir k =>
    simp only [Lobby.step]
    split
    · exact h.update k nofun
    · exact h
  | stirWorker i => exact h.updateWorker i

theorem Reachable.sound (h : Reachable tuning lcores L) : L.Sound := by
  induction h with
  | start => exact ⟨by simp [ofLcores, Fleet.ofLcores, Registry.ofLcores], nofun, nofun⟩
  | step _ a ih => exact ih.step a

/-- Whoever is parked and has not been woken since has to wait on. The thread of a worker that is
parked waits for its start gate, and so may guests : there has been no shutdown, and the worker is
idle or has failed. A guest that waits for a state of a worker sees another one, and a guest that
waits for the fleet to settle sees a worker that is stopping. -/
theorem no_wakeup_lost (h : Reachable tuning lcores L) :
    (∀ i, L.parked i = true → L.fleet.phases[i]? = some .waiting ∧
      L.fleet.registry.down = false ∧
      ∃ s, L.fleet.registry.slots[i]? = some s ∧ (s.state = .idle ∨ s.state = .error)) ∧
    (∀ k i, L.guests k = .parked (.gate i) → L.fleet.registry.down = false ∧
      ∀ s, L.fleet.registry.slots[i]? = some s → s.state = .idle ∨ s.state = .error) ∧
    (∀ k id state, L.guests k = .parked (.state id state) →
      ∃ i s, L.fleet.registry.index? id = some i ∧ L.fleet.registry.slots[i]? = some s ∧
        s.state ≠ state) ∧
    ∀ k, L.guests k = .parked .settled →
      ∃ s ∈ L.fleet.registry.slots, s.state = .stopping := by
  refine ⟨fun i hi => ?_, fun k i => h.sound.guest k _, fun k id state => h.sound.guest k _,
    fun k => h.sound.guest k _⟩
  obtain ⟨hp, hdown, hstates⟩ := h.sound.worker i hi
  have hlt := (List.getElem?_eq_some_iff.1 hp).1
  have hs := List.getElem?_eq_getElem (h.sound.length ▸ hlt)
  exact ⟨hp, hdown, _, hs, hstates _ hs⟩

/-- Two workers are started, one thread passes the gate, and both are asked to stop. The thread of
the second worker answers and parks, and three guests come that have to wait. -/
def halfStopped : Lobby :=
  [.fleet (.move 0 .look), .fleet (.operate .start (.refl true)), .fleet (.move 0 .look),
    .fleet (.operate .stop (.refl true)), .fleet (.move 1 .look), .come 0 (.state 1 .idle),
    .come 1 .settled, .come 2 (.gate 1)].foldl step (ofLcores {} [.worker 1, .worker 2])

/-- In `halfStopped` four threads are parked, the second worker is idle, and the first one is
stopping. -/
theorem no_wakeup_lost_halfStopped :
    Reachable {} [.worker 1, .worker 2] halfStopped ∧ halfStopped.parked 1 = true ∧
    (∃ s, halfStopped.fleet.registry.slots[1]? = some s ∧ (s.state = .idle ∨ s.state = .error)) ∧
    halfStopped.guests 0 = .parked (.state 1 .idle) ∧
    (∃ i s, halfStopped.fleet.registry.index? 1 = some i ∧
      halfStopped.fleet.registry.slots[i]? = some s ∧ s.state ≠ .idle) ∧
    halfStopped.guests 1 = .parked .settled ∧
    (∃ s ∈ halfStopped.fleet.registry.slots, s.state = .stopping) ∧
    halfStopped.guests 2 = .parked (.gate 1) ∧ halfStopped.fleet.registry.down = false := by
  have hreach : Reachable {} [.worker 1, .worker 2] halfStopped := .foldl _ .start
  obtain ⟨hworkers, hgates, hstates, hsettled⟩ := no_wakeup_lost hreach
  exact ⟨hreach, rfl, (hworkers 1 rfl).2.2, rfl, hstates 0 1 .idle rfl, rfl, hsettled 1 rfl, rfl,
    (hgates 2 1 rfl).1⟩

end Lobby

end CoreFleet
