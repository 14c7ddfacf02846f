import CoreFleet.Rehearsal.Stage

/-!
# Turns of the threads

Whenever somebody has to wait, the thread whose next step comes first in time makes that
step (`nextEvent`, `act`), until the condition waited for holds or the time is over
(`waitFor`). Every step of a worker's thread is a `Fleet.move`, and every step of an
executor's thread an `Executor.step?` or the reply to a request ; helpers are replied to in
the same way. Steps of the registry take no time, calls of units take the time that their
script says. What changes nothing that anybody could see is passed over : the polls of idle
workers (`eventTime`), and those between calls that succeed at once (`beginCall`), which
are taken together. That is no other run of the fleet : calls that are taken together lead
to the same fleet as the turns of the thread one after another (`turns_eq_afterCalls`,
`turns_of_beginCall`).
-/

namespace CoreFleet.Rehearsal.Stage

variable {V : Type}

/-! ## Steps of the threads -/

/-- The sleep of an idle worker between two polls of its flag. -/
def idleTime (tuning : Tuning) : Nat := max shortest (tuning.idlePollUs * Clock.micros)

/-- The first poll at or after the present reading of an idle worker whose polls began with
one at `first`. -/
def nextPoll (s : Stage V) (tuning : Tuning) (first : Nat) : Nat :=
  let period := idleTime tuning
  first + (s.clock - first + (period - 1)) / period * period

/-- When the thread of a worker can make its next step, if it can. The polls of an idle
worker whose flag is up change nothing, and are passed over. -/
def eventTime (s : Stage V) (f : Fleet) (i : Nat) (phase : Phase) (activity : Activity) :
    Option Nat :=
  match phase, activity with
  | .exited, _ => none
  | .waiting, .ready since =>
    if f.registry.down || f.registry.inState i .running || f.registry.inState i .stopping then
      some since
    else none
  | _, .ready since => some since
  | .looping .idle _, .busy ends .. =>
    if f.flagAt i then none else some (s.nextPoll f.tuning ends)
  | _, .busy ends .. => some ends
  | _, .atGate u number _ =>
    if (s.unit? u).any fun unit => number ≤ unit.permits then some s.clock else none

/-- The earlier of an event that was found and one more, the former if they coincide. -/
def earlier {α : Type} (found : Option (Nat × α)) (t : Nat) (e : α) : Option (Nat × α) :=
  if found.any (·.1 ≤ t) then found else some (t, e)

/-- The first of an event that was found and those of the threads from position `i` on of
the runtime at place `k` : its reading, the place, and the position. -/
def firstFrom (s : Stage V) (f : Fleet) (k : Nat) :
    Nat → List Phase → List Activity → Option (Nat × Nat × Nat) → Option (Nat × Nat × Nat)
  | i, p :: ps, a :: as, found =>
    firstFrom s f k (i + 1) ps as (match s.eventTime f i p a with
      | some t => earlier found t (k, i)
      | none => found)
  | _, _, _, found => found

/-- The next event of the rehearsal : its reading, the place of the runtime, and the
position of the worker. -/
def nextEvent (s : Stage V) : Option (Nat × Nat × Nat) :=
  s.members.zipIdx.foldl (fun found (m, k) =>
    s.firstFrom m.runtime.fleet k 0 m.runtime.fleet.phases m.activities found) none

/-- Puts a call that begins at `now` under way, after some others like it. -/
def embark (s : Stage V) (u : UnitId) (call : ScriptedCall) (before now : Nat) :
    Activity × Stage V :=
  if call.gated then
    let number := ((s.unit? u).getD { name := "" }).arrive.1
    (.atGate u number call, s.modifyUnit u fun unit => unit.arrive.2)
  else (.busy (now + (before + 1) * max shortest call.time) call.outcome before, s)

/-- A call that does not go to the gate takes its time once for itself and once for each of
those before it. -/
theorem embark_eq_busy {s s' : Stage V} {u : UnitId} {call : ScriptedCall}
    {more now ends before : Nat} {outcome : Outcome}
    (h : s.embark u call more now = (.busy ends outcome before, s')) :
    before = more ∧ ends = now + (more + 1) * max shortest call.time := by
  simp only [embark] at h
  split at h
  · exact Activity.noConfusion (congrArg Prod.fst h)
  · obtain ⟨⟨⟩, -⟩ := Prod.mk.inj h
    exact ⟨rfl, rfl⟩

/-- How many of the shortest calls are taken together at most. -/
def together : Nat := restTime / shortest

/-- The call of a unit that a thread has just entered, or the sleep of an idle one. Shortest
calls that follow each other are taken together up to the next one after which the timer may
be called. -/
def beginCall (s : Stage V) (tuning : Tuning) (now : Nat) : Phase → Activity × Stage V
  | .looping loop .call =>
    match loop.unit? with
    | some u =>
      match s.unit? u with
      | some unit =>
        let more := loop.quietCalls shortest now together - 1
        let (call, before, unit) := unit.beginRuns now (loop.quanta? tuning) more
        ({ s with units := s.units.set u unit } : Stage V).embark u call before now
      | none => (.busy (now + shortest) .ok 0, s)
    | none => (.busy (now + idleTime tuning) .ok 0, s)
  | .looping loop (.timer _) =>
    match loop.unit? with
    | some u =>
      match s.unit? u with
      | some unit =>
        let (call, unit) := unit.beginTimer
        ({ s with units := s.units.set u unit } : Stage V).embark u call 0 now
      | none => (.busy (now + shortest) .ok 0, s)
    | none => (.busy (now + shortest) .ok 0, s)
  | _ => (.ready now, s)

/-- A fleet after a number of calls of the worker at `i` that succeeded, with the timer due
at none of them. -/
def afterCalls (f : Fleet) (i n : Nat) : Fleet :=
  match f.phases[i]? with
  | some (.looping loop .call) => f.setPhase i (.looping (loop.ticks n) .call)
  | _ => f

/-- The thread of worker `i` makes its next step, and polls its flag if it is about to. -/
def turnAndPoll (f : Fleet) (i : Nat) (outcome : Outcome) (now : Nat) : Option Fleet :=
  (f.turn? i outcome now).bind fun f =>
    match f.phases[i]? with
    | some (.looping _ .check) => f.turn? i .ok now
    | _ => some f

/-- Taking one call that succeeded is the thread's own step, if the flag is up and the timer
is not called. -/
theorem turnAndPoll_eq_afterCalls {f : Fleet} {i now : Nat} {loop : Loop}
    (hp : f.phases[i]? = some (.looping loop .call)) (hf : f.flagAt i = true)
    (hq : loop.afterCall .ok now = .looping (loop.ticks 1) .check) :
    turnAndPoll f i .ok now = some (afterCalls f i 1) := by
  have hi : i < f.phases.length := (List.getElem?_eq_some_iff.1 hp).1
  let checked := f.setPhase i (.looping (loop.ticks 1) .check)
  have hback : f.turn? i .ok now = some checked := by
    simp [Fleet.turn?, hp, Phase.next?, Fleet.move, hq, checked]
  have hset : checked.phases[i]? = some (.looping (loop.ticks 1) .check) := by
    simp [checked, Fleet.setPhase, hi]
  have hpoll : checked.turn? i .ok now = some (f.setPhase i (.looping (loop.ticks 1) .call)) := by
    have hflag : checked.flagAt i = true := hf
    simp only [Fleet.turn?, hset, Phase.next?, Fleet.move, hflag, Loop.poll, Option.bind_some]
    simp [checked, Fleet.setPhase]
  simp only [turnAndPoll, afterCalls, hback, hset, hpoll, hp, Option.bind_some]

/-- A fleet after `n` turns of the worker at `i`, which makes calls of equal length that
succeed, the first of them from `now` on. -/
def turns (f : Fleet) (i time now : Nat) : Nat → Option Fleet
  | 0 => some f
  | n + 1 => (turns f i time now n).bind fun f => turnAndPoll f i .ok (now + (n + 1) * time)

/-- Taking calls together is making one turn after another, as long as the flag is up. The
count of a gate is in its word from the start on, which `hword` says. -/
theorem turns_eq_afterCalls {f : Fleet} {i time now limit n : Nat} {loop : Loop}
    (hp : f.phases[i]? = some (.looping loop .call)) (hf : f.flagAt i = true)
    (hword : loop.ticks 0 = loop) (htime : 0 < time)
    (hn : n ≤ loop.quietCalls time now limit - 1) :
    turns f i time now n = some (afterCalls f i n) := by
  have hi : i < f.phases.length := (List.getElem?_eq_some_iff.1 hp).1
  have hafter (k : Nat) : afterCalls f i k = f.setPhase i (.looping (loop.ticks k) .call) := by
    simp only [afterCalls, hp]
  induction n with
  | zero =>
    have : f.phases.set i (.looping loop .call) = f.phases := by
      rw [← List.getElem_of_getElem? hp |>.2]
      exact List.set_getElem_self ..
    simp only [turns, hafter, hword, Fleet.setPhase, this]
  | succ n ih =>
    let g := afterCalls f i n
    have hpg : g.phases[i]? = some (.looping (loop.ticks n) .call) := by
      simp [g, hafter, Fleet.setPhase, hi]
    have hfg : g.flagAt i = true := by
      rw [← hf]; simp only [g, hafter]; rfl
    have hback : (loop.ticks n).afterCall .ok (now + (n + 1) * time) =
        .looping ((loop.ticks n).ticks 1) .check := by
      have hquiet : n + 1 < loop.quietCalls time now limit := by omega
      rw [← loop.ticks_succ, Loop.afterCall_ticks htime hquiet]
    have hone : afterCalls g i 1 = afterCalls f i (n + 1) := by
      simp only [afterCalls, hpg, hp, ← loop.ticks_succ]
      simp [g, hafter, Fleet.setPhase]
    rw [turns, ih (by omega), Option.bind_some, turnAndPoll_eq_afterCalls hpg hfg hback, hone]

/-- The turns of the calls that `beginCall` takes together lead to the fleet from which
`act` goes on when the last of them ends. -/
theorem turns_of_beginCall {s s' : Stage V} {f : Fleet} {i now ends before : Nat}
    {tuning : Tuning} {loop : Loop} {outcome : Outcome}
    (hp : f.phases[i]? = some (.looping loop .call)) (hf : f.flagAt i = true)
    (hword : loop.ticks 0 = loop)
    (h : s.beginCall tuning now (.looping loop .call) = (.busy ends outcome before, s')) :
    ∃ time, 0 < time ∧ ends = now + (before + 1) * time ∧
      turns f i time now before = some (afterCalls f i before) := by
  have hshortest : 0 < shortest := by decide
  have hsingle (time : Nat) (htime : 0 < time) : turns f i time now 0 = some (afterCalls f i 0) :=
    turns_eq_afterCalls hp hf hword htime (Nat.zero_le (loop.quietCalls time now 0 - 1))
  simp only [beginCall] at h
  split at h
  · split at h
    · rename_i unit _
      obtain ⟨hle, hplain⟩ := unit.beginRuns_more now (loop.quanta? tuning)
        (loop.quietCalls shortest now together - 1)
      revert h hle hplain
      generalize unit.beginRuns now (loop.quanta? tuning)
        (loop.quietCalls shortest now together - 1) = begun
      obtain ⟨call, more, unit⟩ := begun
      intro h hle hplain
      obtain ⟨rfl, rfl⟩ := embark_eq_busy h
      cases before with
      | zero =>
        have htime : 0 < max shortest call.time := Nat.lt_of_lt_of_le hshortest (Nat.le_max_left ..)
        exact ⟨_, htime, rfl, hsingle _ htime⟩
      | succ n =>
        have htime : max shortest call.time = shortest := by
          have := hplain (Nat.succ_pos n)
          simp only [ScriptedCall.isPlain, Bool.and_eq_true, decide_eq_true_eq] at this
          exact Nat.max_eq_left this.2
        exact ⟨shortest, hshortest, by rw [htime], turns_eq_afterCalls hp hf hword hshortest hle⟩
    · obtain ⟨⟨⟩, rfl⟩ := Prod.mk.inj h
      exact ⟨shortest, hshortest, by omega, hsingle shortest hshortest⟩
  · obtain ⟨⟨⟩, rfl⟩ := Prod.mk.inj h
    have hidle : 0 < idleTime tuning := Nat.lt_of_lt_of_le hshortest (Nat.le_max_left ..)
    exact ⟨idleTime tuning, hidle, by omega, hsingle _ hidle⟩

/-- The thread of worker `i` of the runtime at place `k` makes the step that is due at
`now`. -/
def act (s : Stage V) (now k i : Nat) : Stage V :=
  let now := max s.clock now
  match s.members[k]? with
  | none => s
  | some m =>
    match m.activities[i]? with
    | none => s
    | some (.atGate _ _ call) =>
      let busy := Activity.busy (now + max shortest call.time) call.outcome 0
      { s with
        clock := now
        members := s.members.set k { m with activities := m.activities.set i busy } }
    | some activity =>
      let fleet := { m.runtime.fleet with released := s.abandoned k }
      match turnAndPoll (afterCalls fleet i activity.before) i activity.outcome now with
      | some fleet =>
        let (next, s) := ({ s with clock := now } : Stage V).beginCall fleet.tuning now
          (fleet.phases[i]?.getD .exited)
        { s with members := s.members.set k { m with
          runtime := { m.runtime with fleet }, activities := m.activities.set i next } }
      | none => s

/-! ## Requests -/

/-- The position that an operation of a worker's thread names. -/
def positionOf? : Operation → Option Nat
  | .finish i _ => some i
  | .retire i => some i
  | _ => none

/-- A wait on the registry of a runtime, if its worker is known : whether it is over, and for
how long it is waited at most. -/
def waitOn (m : Member V) (w : Wish) (timeout : Nat) : Option (Bool × Nat) :=
  match (m.runtime.fleet.registry.look w).answer with
  | .ok met => some (met, timeout)
  | .error _ => none

/-- The reply to a wait on the registry of a runtime. -/
def waitReply (m : Member V) (w : Wish) : Response :=
  match (m.runtime.fleet.registry.look w).answer with
  | .ok met => .truth met
  | .error e => .result (.error e)

/-- What a request waits for : whether it has happened, and for how long it is waited for. -/
def waitOf? (asker : Asker) (k : Nat) (s : Stage V) : Request V → Option (Bool × Nat)
  | .waitState id state timeout =>
    (s.members[k]?).bind fun m => waitOn m (.state id state) timeout
  | .waitSettled timeout => (s.members[k]?).bind fun m => waitOn m .settled timeout
  | .waitUnit u what least timeout =>
    some ((s.unit? u).any fun unit => least ≤ unit.count what, timeout)
  | .gather => some (s.helpers.all (·.sender ≠ asker), Clock.longest)
  | _ => none

/-- Replies to a request about a runtime, which is the one at place `k`. -/
def replyAbout (k : Nat) (m : Member V) (s : Stage V) : Request V → Response × Stage V
  | .operation op =>
    let r := m.runtime.fleet.registry
    if (positionOf? op).any (r.size ≤ ·) then
      (.fault (positionFault r.size ((positionOf? op).getD 0)), s)
    else (.result (op.perform r).answer,
      s.modifyMember k fun m => { m with runtime := m.runtime.operate op }.wake)
  | .attend i =>
    (.done, s.modifyMember k fun m => { m with attending := m.attending ++ [i] }.wake)
  | .lcoreAt i =>
    match m.runtime.fleet.registry.slots[i]? with
    | some slot => (.lcore slot.lcore, s)
    | none => (.fault (positionFault m.runtime.fleet.registry.size i), s)
  | .size => (.size m.runtime.fleet.registry.size, s)
  | .waitState id state _ => (waitReply m (.state id state), s)
  | .waitSettled _ => (waitReply m .settled, s)
  | _ => (.done, s)

/-- Replies to a request. A wait is over when what it waits for has happened. -/
def replyNow (asker : Asker) (k : Nat) (q : Request V) (s : Stage V) :
    Response × Stage V :=
  match q with
  | .waitUnit u what least _ =>
    (.truth ((s.unit? u).any fun unit => least ≤ unit.count what), s)
  | .openGate u => (.done, s.modifyUnit u ScriptedUnit.openGate)
  | .dropUnit u =>
    (.truth (s.isOwned u), s.modifyUnit u fun unit => { unit with owned := false })
  | .record v => (.done, { s with log := s.log ++ [v] })
  | .send errands =>
    let helper : Helper V :=
      { number := s.sent, sender := asker, about := k, asked := s.clock + helperDelay, errands }
    (.done, { s with helpers := s.helpers ++ [helper], sent := s.sent + 1 })
  | .gather => (.done, s)
  | q =>
    match s.members[k]? with
    | some m => s.replyAbout k m q
    | none => (.fault "", s)

/-- When a wait that began at `asked` must be given up, if it still has to go on. -/
def deadline? (asker : Asker) (k : Nat) (q : Request V) (asked : Nat) (s : Stage V) :
    Option (Option Nat) :=
  match s.waitOf? asker k q with
  | some (false, timeout) => some (Clock.after? asked timeout)
  | _ => none

/-- Replies to a request that was made at `asked`, unless it has to wait on. -/
def attempt (asker : Asker) (k : Nat) (asked : Nat) (q : Request V) (s : Stage V) :
    Option (Response × Stage V) :=
  match deadline? asker k q asked s with
  | some none => none
  | some (some deadline) =>
    if s.clock < deadline then none else some (replyNow asker k q s)
  | none => some (replyNow asker k q s)

/-- The reading at which a request that was made at `asked` is replied to, as far as it does
not wait for others. -/
def replyTime (asker : Asker) (k : Nat) (asked : Nat) (q : Request V) (s : Stage V) :
    Option Nat :=
  (deadline? asker k q asked s).getD (some (max s.clock asked))

/-! ## Helpers and executors -/

/-- Lets a helper make its requests from one made at `asked` on, until it has to wait. A
fault ends it. -/
def runErrands (number about : Nat) : Nat → List (Request V) → Stage V → Stage V
  | _, [], s => { s with helpers := s.helpers.filter (·.number ≠ number) }
  | asked, q :: rest, s =>
    match attempt (.helper number) about asked q s with
    | some (.fault _, s) => { s with helpers := s.helpers.filter (·.number ≠ number) }
    | some (_, s) => runErrands number about s.clock rest s
    | none =>
      let wait (h : Helper V) : Helper V :=
        if h.number = number then { h with asked, errands := q :: rest } else h
      { s with helpers := s.helpers.map wait }

/-- Lets the helpers go on whose time has come. -/
def serveHelpers (s : Stage V) : Stage V :=
  s.helpers.foldl (fun s h =>
    if h.asked ≤ s.clock then runErrands h.number h.about h.asked h.errands s else s) s

/-- How many steps are made at most before a wait is given up. -/
def patience : Nat := 100000000

/-- Lets the executor of a member go on. -/
def serveMember (k : Nat) (m : Member V) (s : Stage V) : Stage V :=
  let go (e : Executor V (Request V) Response (TaskAnswer V Response)) (s : Stage V) : Stage V :=
    let (executor, s) := e.advance (fun q s => attempt (.job k) k s.clock q s) patience s
    s.modifyMember k fun m =>
      { m with runtime := { m.runtime with executor }, asked := s.clock }
  match m.runtime.executor.request? with
  | some q =>
    match attempt (.job k) k m.asked q s with
    | some (a, s) => go (m.runtime.executor.resume a) s
    | none => s
  | none => if m.runtime.executor.step?.isSome then go m.runtime.executor s else s

/-- Lets all helpers and executors go on. -/
def serve (s : Stage V) : Stage V :=
  let s := s.serveHelpers
  s.members.zipIdx.foldl (fun s (m, k) => serveMember k m s) s

/-- The reading at which a helper goes on. -/
def helperTime (s : Stage V) (h : Helper V) : Option Nat :=
  if s.clock < h.asked then some h.asked
  else match h.errands with
    | q :: _ => s.replyTime (.helper h.number) h.about h.asked q
    | [] => some s.clock

/-- The reading at which an executor goes on. -/
def executorTime (s : Stage V) (k : Nat) (m : Member V) : Option Nat :=
  match m.runtime.executor.request? with
  | some q => s.replyTime (.job k) k m.asked q
  | none => if m.runtime.executor.step?.isSome then some s.clock else none

/-- The first reading at which a helper or an executor goes on. -/
def alarm? (s : Stage V) : Option Nat :=
  ((s.helpers.map s.helperTime) ++ s.members.zipIdx.map fun (m, k) => s.executorTime k m).foldl
    (Option.merge min) none

/-! ## Waiting -/

/-- The next thing to happen : its reading and what it does. -/
def next? (s : Stage V) : Option (Nat × Stage V) :=
  let ring (t : Nat) : Nat × Stage V := (t, { s with clock := max s.clock t })
  match s.nextEvent, s.alarm? with
  | some (t, k, i), some t' => some (if t' < t then ring t' else (t, s.act t k i))
  | some (t, k, i), none => some (t, s.act t k i)
  | none, some t' => some (ring t')
  | none, none => none

/-- Lets the threads go on until a condition holds or the deadline has passed, and tells
whether it holds. -/
def waitFor (cond : Stage V → Bool) (deadline : Option Nat) : Nat → Stage V → Bool × Stage V
  | 0, s => (cond s, s)
  | fuel + 1, s =>
    let s := s.serve
    if cond s then (true, s)
    else
      let expire (s : Stage V) : Stage V := { s with clock := max s.clock (deadline.getD 0) }
      match s.next? with
      | none => (false, expire s)
      | some (t, after) =>
        if deadline.any (· < t) then (false, expire s)
        else waitFor cond deadline fuel after

/-- Waits for a condition with no limit. -/
def await (s : Stage V) (cond : Stage V → Bool) : Stage V := (waitFor cond none patience s).2

end CoreFleet.Rehearsal.Stage
