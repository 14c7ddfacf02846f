import CoreFleet.Executor.Task
import CoreFleet.Fleet.Runtime
import CoreFleet.Registry.Waiting
import CoreFleet.Rehearsal.Script

/-!
# The stage of a rehearsal

A rehearsal plays whole runtimes with scripted units on a virtual clock. The stage holds
the clock, the units, the runtimes with what each of their threads is doing, and a log.
`Request` and `Response` are what the jobs and the clients of a runtime say to it. Whoever
makes a request may send a helper first (`Request.send`), a thread that makes requests of
its own while the sender waits.
-/

namespace CoreFleet.Rehearsal

/-- What a client, a job or a helper asks of a runtime and its units. -/
inductive Request (V : Type) where
  | operation (op : Operation)
  /-- The core of the worker at a position. -/
  | lcoreAt (i : Nat)
  /-- The number of workers. -/
  | size
  /-- Waits for a state of a worker, for the given time. -/
  | waitState (id : Nat) (state : State) (timeout : Nat)
  /-- Waits until no worker is stopping, for the given time. -/
  | waitSettled (timeout : Nat)
  /-- Lets one thread more wait for the start gate of the worker at a position. -/
  | attend (i : Nat)
  /-- Waits until so many calls of a unit were counted, for the given time. -/
  | waitUnit (u : UnitId) (what : Count) (least timeout : Nat)
  /-- Lets one more call pass the gate of a unit. -/
  | openGate (u : UnitId)
  /-- Lets go of the owner's handle of a unit. -/
  | dropUnit (u : UnitId)
  /-- Enters a value in the log of the rehearsal. -/
  | record (v : V)
  /-- Sends a helper, which makes these requests one after another. -/
  | send (errands : List (Request V))
  /-- Waits for the end of the helpers that were sent. -/
  | gather

/-- The reply to a request. -/
inductive Response where
  | result (r : Except Error Answer)
  | lcore (l : Lcore)
  | size (n : Nat)
  /-- What was waited for happened in time, or the handle let go of was held. -/
  | truth (b : Bool)
  | done
  /-- The request named a worker by a position that the fleet does not have. -/
  | fault (message : String)

/-- The panic of a thread whose request had a fault. -/
def Response.fault? : Response → Option Payload
  | .fault message => some (.text message)
  | _ => none

/-- What a thread is doing. -/
inductive Activity
  /-- Nothing, from this reading on. -/
  | ready (since : Nat)
  /-- Waits at the gate of a unit, with its number. -/
  | atGate (unit : UnitId) (number : Nat) (call : ScriptedCall)
  /-- Is in a call that ends at this reading, the last one after some that succeeded. -/
  | busy (ends : Nat) (outcome : Outcome) (before : Nat)
  deriving DecidableEq

/-- How the call ends that a thread is in. -/
def Activity.outcome : Activity → Outcome
  | ready _ => .ok
  | atGate _ _ call => call.outcome
  | busy _ outcome _ => outcome

/-- The calls that have succeeded before the one that a thread is in. -/
def Activity.before : Activity → Nat
  | busy _ _ before => before
  | _ => 0

/-- A runtime whose jobs are tasks. -/
abbrev TaskRuntime (V : Type) := Runtime V (Request V) Response (TaskAnswer V Response)

/-- A runtime in rehearsal. -/
structure Member (V : Type) where
  runtime : TaskRuntime V
  /-- What the threads of the fleet are doing. -/
  activities : List Activity
  /-- When the request was made that the executor's thread waits on. -/
  asked : Nat := 0
  /-- The positions whose start gates further threads wait for. -/
  attending : List Nat := []
  /-- The further threads that have passed, in order. -/
  passed : List (Nat × Registry.Awakening) := []

namespace Member

variable {V : Type}

/-- A run loop of the runtime runs the unit. -/
def runs (m : Member V) (u : UnitId) : Bool :=
  m.runtime.fleet.phases.any fun p => p.unit? == some u

/-- Lets the further threads look at the registry. -/
def wake (m : Member V) : Member V :=
  let (passed, attending, registry) :=
    Registry.wakeAll m.attending m.runtime.fleet.registry
  { m with
    runtime := { m.runtime with fleet := { m.runtime.fleet with registry } }
    attending, passed := m.passed ++ passed }

end Member

/-- Who makes a request. -/
inductive Asker
  | client
  /-- A job of the runtime at this place. -/
  | job (place : Nat)
  /-- The helper with this number. -/
  | helper (number : Nat)
  deriving DecidableEq

/-- A thread that makes requests on behalf of somebody who waits. -/
structure Helper (V : Type) where
  number : Nat
  sender : Asker
  /-- The place of the runtime that the requests are about. -/
  about : Nat
  /-- When the first of the requests is or was made. -/
  asked : Nat
  errands : List (Request V)

/-- The time that a helper takes until it begins. -/
def helperDelay : Nat := 5 * Clock.millis

/-- A rehearsal. -/
structure Stage (V : Type) where
  /-- The reading of the virtual clock. -/
  clock : Nat := 0
  /-- The scripted units, whose positions are their identities. -/
  units : List ScriptedUnit := []
  /-- The runtimes, in the order in which they were brought up. -/
  members : List (Member V) := []
  /-- The helpers that have not finished. -/
  helpers : List (Helper V) := []
  /-- The number of helpers sent so far. -/
  sent : Nat := 0
  /-- An environment is up. -/
  initialized : Bool := false
  /-- The values logged, in order. -/
  log : List V := []

namespace Stage

variable {V : Type}

/-! ## Looking around -/

/-- Changes the runtime at place `k`, with what its threads are doing. -/
def modifyMember (s : Stage V) (k : Nat) (f : Member V → Member V) : Stage V :=
  { s with members := s.members.modify k f }

/-- Changes the runtime at place `k`. -/
def modify (s : Stage V) (k : Nat) (f : TaskRuntime V → TaskRuntime V) : Stage V :=
  s.modifyMember k fun m => { m with runtime := f m.runtime }

/-- A condition on the runtime at place `k`. -/
def satisfies (k : Nat) (p : TaskRuntime V → Bool) (s : Stage V) : Bool :=
  s.members[k]?.any fun m => p m.runtime

/-- The unit with this identity. -/
def unit? (s : Stage V) (u : UnitId) : Option ScriptedUnit := s.units[u]?

/-- The owner of a unit holds it. -/
def isOwned (s : Stage V) (u : UnitId) : Bool := (s.unit? u).any (·.owned)

/-- A unit is alive while its owner or any run loop holds it. -/
def isAlive (s : Stage V) (u : UnitId) : Bool :=
  s.isOwned u || s.members.any (·.runs u)

/-- The units that nobody holds but, maybe, the runtime at place `k`. -/
def abandoned (s : Stage V) (k : Nat) : List UnitId :=
  s.units.zipIdx.filterMap fun (unit, u) =>
    if !unit.owned && (s.members.eraseIdx k).all fun m => !m.runs u then some u else none

/-- Changes the unit with this identity. -/
def modifyUnit (s : Stage V) (u : UnitId) (f : ScriptedUnit → ScriptedUnit) : Stage V :=
  { s with units := s.units.modify u f }

end Stage

end CoreFleet.Rehearsal
