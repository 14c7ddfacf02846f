import CoreFleet.Executor.Closing
import CoreFleet.Fleet.Disposal
import CoreFleet.Rehearsal.Turn

/-!
# Clients of a rehearsal

What a client may do on the stage : make requests of a registry, hand tasks to an executor
and wait for their replies, bring runtimes up, start and stop their fleets, and tear them
down. A client's call lasts until it would return, and the threads go on meanwhile.
-/

namespace CoreFleet.Rehearsal.Stage

variable {V : Type}

/-! ## Requests and jobs -/

/-- Makes a request about the runtime at place `k`, and waits for the reply. -/
def reply (k : Nat) (q : Request V) (s : Stage V) : Response × Stage V :=
  match deadline? .client k q s.clock s with
  | some deadline =>
    let answered (s : Stage V) : Bool := (deadline? .client k q s.clock s).isNone
    replyNow .client k q (waitFor answered deadline patience s).2
  | none =>
    let (r, s) := replyNow .client k q s
    (r, s.serve)

/-- Makes a request while a helper makes others, and waits for the reply and the helper. -/
def replyAided (k : Nat) (errands : List (Request V)) (q : Request V) (s : Stage V) :
    Response × Stage V :=
  let (_, s) := s.reply k (.send errands)
  let (r, s) := s.reply k q
  (r, (s.reply k .gather).2)

/-- The further threads that have passed the start gates of a runtime since the last time. -/
def takePassed (s : Stage V) (k : Nat) : List (Nat × Registry.Awakening) × Stage V :=
  (((s.members[k]?).map (·.passed)).getD [],
    s.modifyMember k fun m => { m with passed := [] })

/-- A task that first enters a value in the log. -/
def taskJob (rt : TaskRuntime V) (record : Option V) (task : Task V (Request V)) :
    Job V (Request V) Response (TaskAnswer V Response) :=
  let job := task.job rt.executor.lcore rt.executor.threadName Response.fault?
  match record with
  | some v => .ask (.record v) fun _ => job
  | none => job

/-- Where the reply to a task is found : at which runtime, and under which ticket. -/
structure Receipt where
  place : Nat
  ticket : Nat
  deriving DecidableEq, Repr

/-- Submits a task to the executor of the runtime at place `k`. -/
def submit (s : Stage V) (k : Nat) (record : Option V) (task : Task V (Request V)) :
    Receipt × Stage V :=
  match s.members[k]? with
  | none => (⟨k, 0⟩, s)
  | some m =>
    let (ticket, executor) := m.runtime.executor.submit (taskJob m.runtime record task)
    (⟨k, ticket⟩, (s.modify k fun rt => { rt with executor }).serve)

/-- Lets the reply to a task go to nobody. -/
def forget (s : Stage V) (r : Receipt) : Stage V :=
  s.modify r.place fun rt => { rt with executor := rt.executor.abandon r.ticket }

/-- Waits for the reply to a task. -/
def receive (s : Stage V) (r : Receipt) : Except Error (TaskAnswer V Response) × Stage V :=
  let s := s.await (satisfies r.place fun rt => (rt.executor.reply? r.ticket).isSome)
  match s.members[r.place]?.bind fun m => m.runtime.executor.reply? r.ticket with
  | some reply => (reply, s)
  | none => (.error .executorStopped, s)

/-- Makes the steps of a call that stops the executor of a runtime, from a step of the call on,
as long as it need not wait, and tells where it stands then. -/
def proceedStop (k : Nat) : Nat → StopCall → Stage V → StopCall × Stage V
  | 0, call, s => (call, s)
  | fuel + 1, call, s =>
    match s.members[k]?.bind fun m => call.step? false m.runtime.executor with
    | some (executor, call) => proceedStop k fuel call (s.modify k fun rt => { rt with executor })
    | none => (call, s)

/-- The number of steps of a call that stops an executor at most. -/
def stopSteps : Nat := 3

/-- Stops the executor of a runtime from outside, and waits for its end if nobody else
does. -/
def stopExecutor (s : Stage V) (k : Nat) : Stage V :=
  match s.proceedStop k stopSteps .hangUp with
  | (.await, s) => s.await (satisfies k (·.executor.ended))
  | (_, s) => s.serve

/-! ## Runtimes -/

/-- A runtime with no worker threads : its registry changes by requests alone. -/
def bareMember (main : Nat) (workers : List Lcore) : Member V where
  runtime :=
    { options := ⟨"", [], main, none, [], 0⟩
      fleet := { registry := .ofLcores workers, phases := [] }
      executor := { lcore := .main main } }
  activities := []

/-- Brings up a runtime on a machine with the given processors, and gives its place. -/
def bringUp (s : Stage V) (available : List Nat) (args : List String) (tuning : Tuning) :
    Except Error (Nat × Launch.Options) × Stage V :=
  match Launch.bringUp available args s.initialized with
  | (initialized, .ok options) =>
    let runtime : TaskRuntime V := .ofOptions tuning options
    let activities := runtime.fleet.phases.map fun _ => Activity.ready s.clock
    (.ok (s.members.length, options),
      { s with initialized, members := s.members ++ [{ runtime, activities }] })
  | (initialized, .error e) => (.error e, { s with initialized })

/-- Starts the fleet of a runtime, by a job of its main core. -/
def start (s : Stage V) (k : Nat) : Except Error Answer × Stage V :=
  let (receipt, s) := s.submit k none (.ask (.operation .start))
  let (r, s) := s.receive receipt
  (match r with
    | .ok (.reply (.result r)) => r
    | .ok _ => .ok .done
    | .error e => .error e, s)

/-- Lets the threads go on while a call that stops the fleet is parked, and tells whether it is
woken : it is when the fleet has settled. -/
def parkHalt (k : Nat) (deadline : Option Nat) (s : Stage V) : Bool × Stage V :=
  waitFor (satisfies k (·.fleet.registry.settled)) deadline patience s

/-- Stops the fleet of a runtime from a step of the call on, and tells whether it settled in
time. -/
def halt (k : Nat) : Nat → Halt → Stage V → Bool × Stage V
  | 0, _, s => (false, s)
  | _ + 1, .answered settled, s => (settled, s)
  | fuel + 1, call, s =>
    let (woken, s) := match call with
      | .parked deadline => s.parkHalt k deadline
      | _ => (false, s)
    match s.members[k]?.bind fun m => call.step? m.runtime.fleet s.clock woken with
    | some (fleet, call) => halt k fuel call (s.modify k fun rt => { rt with fleet }).serve
    | none => (false, s)

/-- The number of steps of a call that stops a fleet at most. -/
def haltSteps : Nat := 8

/-- Stops the fleet of a runtime, and tells whether it settled within the given time. -/
def stop (s : Stage V) (k : Nat) (timeout : Nat) : Bool × Stage V :=
  s.halt k haltSteps (.ask timeout)

/-- Disposes of a runtime from a stage on. -/
def dispose (k : Nat) : Nat → Disposal → Stage V → Stage V
  | 0, _, s => s
  | fuel + 1, d, s =>
    let enabled (s : Stage V) : Bool :=
      satisfies k (fun rt => (d.step? rt s.clock false).isSome) s
    let (woken, s) := match d.stage with
      | .halt (.parked deadline) => s.parkHalt k deadline
      | .done => (false, s)
      | _ => (false, s.await enabled)
    match s.members[k]?.bind fun m => d.step? m.runtime s.clock woken with
    | some (rt, d) =>
      let s := (s.modify k fun _ => rt).serve
      dispose k fuel d { s with initialized := d.initialized }
    | none => s

/-- The number of stages of a disposal at most. -/
def stages : Nat := 2 * maxLcores + 16

/-- Disposes of a runtime : shuts it down with the given time for its workers, or drops it. -/
def tearDown (s : Stage V) (k : Nat) (timeout : Option Nat) : Stage V :=
  match s.members[k]? with
  | some m => s.dispose k stages (.ofRuntime m.runtime timeout)
  | none => s

/-- Shuts a runtime down, with the given time for its workers to stop. -/
def shutdown (s : Stage V) (k : Nat) (timeout : Nat) : Stage V := s.tearDown k (some timeout)

/-- Drops a runtime. -/
def drop (s : Stage V) (k : Nat) : Stage V := s.tearDown k none

end CoreFleet.Rehearsal.Stage
