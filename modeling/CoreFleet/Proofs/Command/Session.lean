import CoreFleet.Command.Session
import CoreFleet.Executor.Basic
import CoreFleet.Proofs.Fleet.Underway
import CoreFleet.Proofs.Registry.Refusal

/-!
# The course of a session

A session whose arguments are accepted always gets its fleet started (`begin_eq_ok`) : the heartbeat
is given to a fresh fleet, which then passes the gate. From there on the fleet is under way, so that
every request for reports is answered in the same words (`foldl_step`).

The process gives the heartbeat to its worker and starts the fleet in jobs of the main core. The
session does without the executor and comes to the same (`start_enableHeartbeat`), as an operation
in a job of an executor with no other jobs is the operation itself (`execOnMain_of_ready`).
-/

namespace CoreFleet

namespace Command

/-! ## Signals -/

/-- The signals among the events. -/
def signals (events : List Event) : List Signal :=
  events.filterMap fun
    | .signal s => some s
    | .turn .. => none

/-- Signals of which one ends the process begin with some requests for reports and one that ends
it. -/
theorem exists_requests {sigs : List Signal} (h : ∃ s ∈ sigs, s ≠ .usr1) :
    ∃ n last more, sigs = List.replicate n .usr1 ++ last :: more ∧ last ≠ .usr1 := by
  induction sigs with
  | nil => simp at h
  | cons s sigs ih =>
    by_cases hs : s = .usr1
    · subst hs
      obtain ⟨n, last, more, rfl, hlast⟩ := ih (by simpa using h)
      exact ⟨n + 1, last, more, rfl, hlast⟩
    · exact ⟨0, s, sigs, rfl, hs⟩

/-! ## Where the heartbeat runs -/

/-- The position of the worker that the heartbeat is given to, if there is one. -/
def place (ids : List Nat) (heartbeat : Option Nat) : Option Nat := heartbeat.bind ids.idxOf?

/-- The reports on running workers, one of which has the heartbeat. -/
def reports (ids : List Nat) (place : Option Nat) : List Report :=
  ids.mapIdx fun k id =>
    ⟨id, .running, if place = some k then some "block heartbeat" else none, none⟩

/-- A heartbeat for a core that is no worker is not enabled. -/
def warnings (ids : List Nat) : Option Nat → List Entry
  | some id => if id ∈ ids then [] else [.noHeartbeat id (.unknownWorker id)]
  | none => []

section Place

variable {ids : List Nat} {heartbeat : Option Nat} {k : Nat}

theorem lt_of_place (h : place ids heartbeat = some k) : k < ids.length := by
  obtain ⟨id, -, hk⟩ := Option.bind_eq_some_iff.1 h
  exact (List.idxOf?_eq_some_iff.1 hk).1

theorem isSome_place : (place ids heartbeat).isSome = true ↔ ∃ id ∈ ids, heartbeat = some id := by
  cases heartbeat with
  | none => simp [place]
  | some id =>
    rw [place, Option.bind_some, List.isSome_idxOf?]
    simp

/-- Where identifiers are distinct, the place of the heartbeat is that of its worker. -/
theorem place_eq_some_iff (hids : ids.Nodup) {id : Nat} (hk : ids[k]? = some id) :
    place ids heartbeat = some k ↔ heartbeat = some id := by
  obtain ⟨hlt, rfl⟩ := List.getElem?_eq_some_iff.1 hk
  rw [place, Option.bind_eq_some_iff]
  constructor
  · rintro ⟨id, rfl, hid⟩
    obtain ⟨-, rfl, -⟩ := List.idxOf?_eq_some_iff.1 hid
    rfl
  · rintro rfl
    refine ⟨_, rfl, List.idxOf?_eq_some_iff.2 ⟨hlt, rfl, fun j hj => ?_⟩⟩
    exact List.pairwise_iff_getElem.1 hids j k (Nat.lt_trans hj hlt) hlt hj

end Place

namespace Session

variable {s : Session} {events : List Event}

theorem foldl_step_of_ended (h : s.ended = true) : events.foldl step s = s := by
  induction events with
  | nil => rfl
  | cons e events ih =>
    have hstep : s.step e = s := if_pos h
    rw [List.foldl_cons, hstep, ih]

/-- Every request is answered with the reports of the beginning, and the signal that ends the
session ends the journal. -/
theorem foldl_step (hfleet : s.fleet.Underway) (hended : s.ended = false) {n : Nat} {last : Signal}
    {more : List Signal} (hsignals : signals events = List.replicate n .usr1 ++ last :: more)
    (hlast : last ≠ .usr1) : (events.foldl step s).journal =
      s.journal ++ (List.replicate n s.dump).flatten ++ [.ending last] := by
  induction events generalizing s n with
  | nil => simp [signals] at hsignals
  | cons e events ih =>
    rw [List.foldl_cons]
    cases e with
    | turn i now =>
      have hrest : signals events = List.replicate n .usr1 ++ last :: more := hsignals
      cases hturn : s.fleet.turn? i .ok now with
      | none =>
        have hstep : s.step (.turn i now) = s := by simp [step, hended, hturn]
        rw [hstep, ih hfleet hended hrest]
      | some fleet =>
        obtain ⟨hfleet', hregistry⟩ := hfleet.turn? hturn
        have hstep : s.step (.turn i now) = { s with fleet } := by simp [step, hended, hturn]
        have hdump : ({ s with fleet } : Session).dump = s.dump := by
          simp only [dump, hregistry]
        have hrun := ih (s := { s with fleet }) hfleet' hended hrest
        rw [hstep, hrun, hdump]
    | signal sig =>
      cases n with
      | zero =>
        obtain ⟨rfl, -⟩ : sig = last ∧ signals events = more := List.cons.inj hsignals
        have hstep : s.step (.signal sig) = { s.enter [.ending sig] with ended := true } := by
          cases sig with
          | usr1 => exact absurd rfl hlast
          | int | term => simp [step, hended]
        rw [hstep, foldl_step_of_ended rfl]
        simp [enter]
      | succ n =>
        obtain ⟨rfl, hrest⟩ : sig = .usr1 ∧
            signals events = List.replicate n .usr1 ++ last :: more := by
          simpa [signals, List.replicate_succ] using hsignals
        have hstep : s.step (.signal .usr1) = s.enter s.dump := by simp [step, hended]
        have hdump : (s.enter s.dump).dump = s.dump := rfl
        rw [hstep, ih (s := s.enter s.dump) hfleet hended hrest, hdump]
        simp [enter, List.replicate_succ]

/-! ## The beginning -/

/-- The workers before the start : all idle, and one with the heartbeat. -/
def prepared (lcores : List Lcore) (place : Option Nat) : List Slot :=
  lcores.mapIdx fun k l =>
    { Slot.fresh l with
      assignment := if place = some k then some (.block heartbeatBlock) else none }

variable {lcores : List Lcore} {tuning : Tuning} {o : Launch.Options} {heartbeat : Option Nat}

theorem assignBlock_fresh (id : Nat) : (Registry.ofLcores lcores).assignBlock id heartbeatBlock =
    match (lcores.map (·.id)).idxOf? id with
    | some i => ⟨.ok (), ⟨prepared lcores (some i), false⟩, false⟩
    | none => (Registry.ofLcores lcores).refuse (.unknownWorker id) := by
  have hindex : (Registry.ofLcores lcores).index? id = (lcores.map (·.id)).idxOf? id := by
    simp only [Registry.index?, Registry.ofLcores, List.findIdx?_map, List.idxOf?]
    rfl
  rw [← hindex, Registry.assignBlock, Registry.assign]
  rcases (Registry.ofLcores lcores).lookup_cases id with ⟨hk, ht⟩ | ⟨k, t, hk, hget, ht⟩
  · rw [hk, ht]
  · obtain ⟨l, -, rfl⟩ := List.mem_map.1 (List.mem_of_getElem? hget)
    have hfree : (Registry.ofLcores lcores).holder? (Slot.holdsBlock heartbeatBlock) = none := by
      simp [Registry.holder?, Registry.ofLcores, Slot.holdsBlock, Slot.fresh]
    have hfit : (Slot.fresh l).assignable = true := rfl
    have hslots : (Registry.ofLcores lcores).slots.modify k
        (fun s => { s with assignment := some (.block heartbeatBlock) }) =
          prepared lcores (some k) := by
      refine List.ext_getElem? fun i => ?_
      simp only [Registry.ofLcores, prepared, List.getElem?_modify, List.getElem?_map,
        List.getElem?_mapIdx]
      cases lcores[i]? <;> by_cases hki : k = i <;> simp [hki, Slot.fresh]
    rw [hk, ht]
    simp only [hfit, hfree, if_true, Registry.update, hslots]
    rfl

theorem operate_eq {op : Operation} {r : Registry}
    (h : (op.perform s.fleet.registry).after = r) :
    s.operate op = { s with fleet := { s.fleet with registry := r } } := by
  subst h
  rfl

/-- The heartbeat is given to its worker, or a warning is written. -/
theorem enableHeartbeat_eq : (ofOptions tuning o).enableHeartbeat heartbeat =
    { fleet := { registry := ⟨prepared o.workers (place (o.workers.map (·.id)) heartbeat), false⟩
                 tuning
                 phases := o.workers.map fun _ => .waiting }
      journal := [.began, .leftover o.memoryChannels o.passthrough] ++
        warnings (o.workers.map (·.id)) heartbeat } := by
  have hfresh : prepared o.workers none = o.workers.map Slot.fresh := by
    refine List.ext_getElem? fun i => ?_
    simp [prepared, Slot.fresh]
    rfl
  have hregistry : (ofOptions tuning o).fleet.registry = Registry.ofLcores o.workers := rfl
  cases heartbeat with
  | none =>
    simp [enableHeartbeat, ofOptions, place, hfresh, Fleet.ofLcores, Registry.ofLcores, warnings]
  | some id =>
    have hassign : (Registry.ofLcores o.workers).assignBlock id heartbeatBlock = _ :=
      assignBlock_fresh id
    cases hi : (o.workers.map (·.id)).idxOf? id with
    | none =>
      rw [hi] at hassign
      have hmem : id ∉ o.workers.map (·.id) := List.idxOf?_eq_none_iff.1 hi
      rw [enableHeartbeat, hregistry, hassign, place, Option.bind_some, hi, hfresh, warnings,
        if_neg hmem]
      rfl
    | some i =>
      rw [hi] at hassign
      have hmem : id ∈ o.workers.map (·.id) := List.isSome_idxOf?.1 (Option.isSome_of_eq_some hi)
      have hafter : ((Operation.assignBlock id heartbeatBlock).perform
          (Registry.ofLcores o.workers)).after = ⟨prepared o.workers (some i), false⟩ :=
        congrArg Reply.after hassign
      rw [enableHeartbeat, hregistry, hassign, place, Option.bind_some, hi, warnings, if_pos hmem,
        List.append_nil]
      dsimp only
      rw [operate_eq hafter]
      rfl

theorem operate_of_refused {op : Operation} {e : Error}
    (h : (op.perform s.fleet.registry).answer = .error e) : s.operate op = s := by
  have hclean := (Registry.clean_perform s.fleet.registry op).refused e h
  rw [operate_eq (congrArg Reply.after hclean)]
  rfl

/-! ## Operations in jobs of the main core -/

section MainCore

/-- The executor of a session : its jobs request operations of the registry. -/
abbrev MainCore (V : Type) := Executor V Operation (Except Error Answer) (Except Error Answer)

variable {V : Type} {e : MainCore V}

/-- An executor that accepts jobs, has none to run, and knows of no ticket to come. -/
structure Ready (e : MainCore V) : Prop where
  accepting : e.accepting = true
  current : e.current = none
  queue : e.queue = []
  abandoned : ∀ ticket ∈ e.abandoned, ticket < e.issued
  replies : ∀ r ∈ e.replies, r.1 < e.issued

/-- Carries out the operation that a job requests. -/
def serve (op : Operation) (s : Session) : Option (Except Error Answer × Session) :=
  some ((op.perform s.fleet.registry).answer, s.operate op)

/-- Submits a job for an operation, lets the executor make so many steps, and gives the answer. -/
def execOnMain (op : Operation) (steps : Nat) (e : MainCore V) (s : Session) :
    Except Error Answer × MainCore V × Session :=
  let (ticket, submitted) := e.submit (.ask op .answer)
  let done := submitted.advance serve steps s
  (((done.1.reply? ticket).getD (.error .executorStopped)).bind id, done)

theorem ready_fresh (V : Type) (main : Lcore) : Ready ({ lcore := main } : MainCore V) :=
  ⟨rfl, rfl, rfl, nofun, nofun⟩

theorem Ready.advance (h : Ready e) (steps : Nat) (s : Session) :
    e.advance serve steps s = (e, s) := by
  have hstep : e.step? = none := by simp [Executor.step?, h.current, h.queue, h.accepting]
  have hrequest : e.request? = none := by simp [Executor.request?, h.current]
  cases steps with
  | zero => rfl
  | succ steps => simp only [Executor.advance, hstep, hrequest]

/-- An operation in a job of an executor with no other jobs is the operation itself. -/
theorem execOnMain_of_ready (h : Ready e) (op : Operation) (steps : Nat) (s : Session) :
    ∃ e', Ready e' ∧
      execOnMain op (steps + 3) e s = ((op.perform s.fleet.registry).answer, e', s.operate op) := by
  obtain ⟨lcore, accepting, joinable, queue, current, value, issued, replies, abandoned, ended⟩ := e
  obtain ⟨rfl, rfl, rfl, habandoned, hreplies⟩ := h
  let answer := (op.perform s.fleet.registry).answer
  let e' : MainCore V :=
    { lcore, joinable, value, issued := issued + 1, abandoned, ended
      replies := replies ++ [(issued, .ok answer)] }
  have hready : Ready e' := by
    refine ⟨rfl, rfl, rfl, fun t ht => Nat.lt_succ_of_lt (habandoned t ht), fun r hr => ?_⟩
    rcases List.mem_append.1 hr with hr | hr
    · exact Nat.lt_succ_of_lt (hreplies r hr)
    · obtain rfl := List.mem_singleton.1 hr
      exact Nat.lt_succ_self issued
  have hkept : issued ∉ abandoned := fun hmem => Nat.lt_irrefl _ (habandoned issued hmem)
  have hfresh : replies.find? (fun r => r.1 = issued) = none := by
    refine List.find?_eq_none.2 fun r hr => ?_
    simpa using Nat.ne_of_lt (hreplies r hr)
  have hreply : e'.reply? issued = some (.ok answer) := by
    simp [Executor.reply?, e', List.find?_append, hfresh]
  let idle : MainCore V :=
    { lcore, joinable, value, issued := issued + 1, replies, abandoned, ended }
  let submitted : MainCore V := { idle with queue := [(issued, .ask op .answer)] }
  have hsent : idle.reply issued (.ok answer) = e' := if_neg hkept
  -- The job is begun, its request is carried out, and its answer is sent.
  have hdone : submitted.advance serve (steps + 3) s = (e', s.operate op) := by
    rw [← hready.advance steps (s.operate op), ← hsent]
    rfl
  refine ⟨e', hready, ?_⟩
  change ((((submitted.advance serve (steps + 3) s).1.reply? issued).getD
    (.error .executorStopped)).bind id, submitted.advance serve (steps + 3) s) = _
  rw [hdone, hreply]
  rfl

/-- Gives the heartbeat to its worker in a job. -/
def enableOnMain (steps : Nat) (e : MainCore V) (s : Session) : Option Nat → MainCore V × Session
  | none => (e, s)
  | some worker =>
    match execOnMain (.assignBlock worker heartbeatBlock) steps e s with
    | (.ok _, done) => done
    | (.error refusal, e, s) => (e, s.enter [.noHeartbeat worker refusal])

/-- Starts the fleet in a job. -/
def startOnMain (steps : Nat) (e : MainCore V) (s : Session) : Except (List Entry) Session :=
  match execOnMain .start steps e s with
  | (.ok _, _, started) => .ok (started.enter [.started s.fleet.registry.size])
  | (.error refusal, _, s) => .error (s.journal ++ [.unstarted refusal])

theorem enableOnMain_of_ready (h : Ready e) (heartbeat : Option Nat) (steps : Nat) (s : Session) :
    ∃ e', Ready e' ∧
      enableOnMain (steps + 3) e s heartbeat = (e', s.enableHeartbeat heartbeat) := by
  cases heartbeat with
  | none => exact ⟨e, h, rfl⟩
  | some worker =>
    let op : Operation := .assignBlock worker heartbeatBlock
    obtain ⟨e', he', hexec⟩ := execOnMain_of_ready h op steps s
    refine ⟨e', he', ?_⟩
    have hperform : (op.perform s.fleet.registry).answer =
        (s.fleet.registry.assignBlock worker heartbeatBlock).answer.map fun _ => .done := rfl
    rw [enableOnMain, hexec, enableHeartbeat]
    cases hanswer : (s.fleet.registry.assignBlock worker heartbeatBlock).answer with
    | ok =>
      rw [hanswer] at hperform
      rw [hperform]
      rfl
    | error refusal =>
      rw [hanswer] at hperform
      rw [hperform, operate_of_refused hperform]
      rfl

theorem startOnMain_of_ready (h : Ready e) (steps : Nat) (s : Session) :
    startOnMain (steps + 3) e s = s.start := by
  obtain ⟨e', -, hexec⟩ := execOnMain_of_ready h .start steps s
  have hperform : (Operation.start.perform s.fleet.registry).answer =
      s.fleet.registry.start.answer.map fun _ => .done := rfl
  rw [startOnMain, hexec, start]
  cases hanswer : s.fleet.registry.start.answer with
  | ok =>
    rw [hanswer] at hperform
    rw [hperform]
    rfl
  | error refusal =>
    rw [hanswer] at hperform
    rw [hperform, operate_of_refused hperform]
    rfl

/-- The way of a session to its started fleet is that through the fresh executor of its main
core. -/
theorem start_enableHeartbeat (V : Type) (main : Lcore) (heartbeat : Option Nat) (steps : Nat)
    (s : Session) : (s.enableHeartbeat heartbeat).start =
      let (e, s) := enableOnMain (steps + 3) ({ lcore := main } : MainCore V) s heartbeat
      startOnMain (steps + 3) e s := by
  obtain ⟨e', he', henable⟩ := enableOnMain_of_ready (ready_fresh V main) heartbeat steps s
  rw [henable]
  exact (startOnMain_of_ready he' steps _).symm

end MainCore

theorem shut_prepared (place : Option Nat) : (Registry.mk (prepared lcores place) false).Shut where
  up := rfl
  idle s hs := by
    obtain ⟨k, hk, rfl⟩ := List.mem_mapIdx.1 hs
    rfl

/-- Before the start no step of a thread changes anything. -/
theorem turn?_enableHeartbeat {i now : Nat} {outcome : Outcome} {f : Fleet}
    (h : ((ofOptions tuning o).enableHeartbeat heartbeat).fleet.turn? i outcome now = some f) :
    f = ((ofOptions tuning o).enableHeartbeat heartbeat).fleet := by
  rw [enableHeartbeat_eq] at h ⊢
  refine Fleet.turn?_shut (shut_prepared _) (fun p hp => ?_) h
  obtain ⟨l, -, rfl⟩ := List.mem_map.1 hp
  rfl

/-- What is prepared passes the gate. -/
theorem start_prepared (place : Option Nat) : (Registry.mk (prepared lcores place) false).start =
    ⟨.ok (), ⟨(prepared lcores place).map Slot.launch, false⟩, true⟩ := by
  rcases (Registry.mk (prepared lcores place) false).start_cases with
    ⟨busy, hmem, hbusy, -⟩ | ⟨-, hstart⟩
  · exact absurd ((shut_prepared place).idle busy hmem) hbusy
  · exact hstart

theorem running_launched (place : Option Nat) :
    (Registry.mk ((prepared lcores place).map Slot.launch) false).Running := by
  refine ⟨rfl, fun s hs => ?_, fun s hs ref => ?_⟩
  · obtain ⟨t, -, rfl⟩ := List.mem_map.1 hs
    exact ⟨rfl, rfl⟩
  · obtain ⟨t, ht, rfl⟩ := List.mem_map.1 hs
    obtain ⟨k, hk, rfl⟩ := List.mem_mapIdx.1 ht
    by_cases hplace : place = some k <;> simp [Slot.launch, hplace]

theorem snapshot_launched (place : Option Nat) :
    (Registry.mk ((prepared lcores place).map Slot.launch) false).snapshot =
      reports (lcores.map (·.id)) place := by
  refine List.ext_getElem? fun i => ?_
  simp only [Registry.snapshot, prepared, reports, List.getElem?_map, List.getElem?_mapIdx]
  cases lcores[i]? with
  | none => rfl
  | some l => by_cases hplace : place = some i <;> simp [hplace] <;> rfl

theorem any_launched {place : Option Nat} (hplace : ∀ k ∈ place, k < lcores.length) :
    ((prepared lcores place).map Slot.launch).any (Slot.holdsBlock heartbeatBlock) =
      place.isSome := by
  rw [Bool.eq_iff_iff, List.any_eq_true]
  constructor
  · rintro ⟨s, hs, hholds⟩
    obtain ⟨t, ht, rfl⟩ := List.mem_map.1 hs
    obtain ⟨k, hk, rfl⟩ := List.mem_mapIdx.1 ht
    by_cases hplace : place = some k
    · exact hplace ▸ rfl
    · simp [Slot.launch, Slot.holdsBlock, hplace] at hholds
  · intro hsome
    obtain ⟨k, rfl⟩ := Option.isSome_iff_exists.1 hsome
    have hk := hplace k rfl
    refine ⟨_, List.mem_map.2 ⟨_, List.mem_mapIdx.2 ⟨k, hk, rfl⟩, rfl⟩, ?_⟩
    simp [Slot.launch, Slot.holdsBlock, Assignment.holdsBlock]

/-- Where the arguments are accepted, the fleet is started. -/
theorem begin_eq_ok {available : List Nat} {c : Config}
    (ho : Launch.Options.parse available c.launch.toArgs = .ok o) :
    ∃ s, Session.begin available c = .ok s ∧ s.fleet.Underway ∧ s.ended = false ∧
      s.dump = .asked :: (reports (o.workers.map (·.id))
        (place (o.workers.map (·.id)) c.heartbeat.worker)).map .reported ∧
      s.journal = [.began, .leftover o.memoryChannels o.passthrough] ++
        warnings (o.workers.map (·.id)) c.heartbeat.worker ++ [.started o.workers.length] ∧
      s.hasHeartbeat = (place (o.workers.map (·.id)) c.heartbeat.worker).isSome := by
  have hbring : Launch.bringUp available c.launch.toArgs false = (true, .ok o) := by
    simp [Launch.bringUp, ho]
  have hafter (place : Option Nat) :
      (Operation.start.perform ⟨prepared o.workers place, false⟩).after =
        ⟨(prepared o.workers place).map Slot.launch, false⟩ :=
    congrArg Reply.after (start_prepared place)
  rw [Session.begin, hbring]
  dsimp only
  rw [enableHeartbeat_eq, start]
  dsimp only
  rw [start_prepared]
  dsimp only
  rw [operate_eq (hafter _)]
  refine ⟨_, rfl, ⟨running_launched _, ?_, ?_⟩, rfl, ?_, ?_, ?_⟩
  · simp [enter, prepared]
  · intro p hp
    obtain ⟨l, -, rfl⟩ := List.mem_map.1 (show p ∈ o.workers.map fun _ => Phase.waiting from hp)
    exact .waiting
  · rw [dump, ← snapshot_launched]
    rfl
  · simp [enter, Registry.size, prepared]
  · refine any_launched fun k hk => ?_
    have hlt := lt_of_place hk
    rwa [List.length_map] at hlt

end Session

end Command

end CoreFleet
