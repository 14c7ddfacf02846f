import CoreFleet.Error
import CoreFleet.Lcore
import CoreFleet.Work.Basic

/-!
# The worker registry

The registry keeps, for every worker, its lifecycle state, its assignment, its failure
and the flag its run loop polls, and for the whole fleet the mark of a shutdown. Each
operation is one critical section : a function from a registry to a `Reply`, which holds
the answer, the registry afterwards, and whether the threads parked on the registry are
woken. An operation that is refused leaves the registry as it was.

The client operations are `assign`, `clearPipeline`, `clearBlock`, `reset`, `start` and
`stop`. A worker's own thread uses `awaken`, `finish` and `retire`, and the runtime
`shutdown`.
-/

namespace CoreFleet

/-- One worker as the registry knows it. -/
structure Slot where
  lcore : Lcore
  state : State := .idle
  assignment : Option Assignment := none
  /-- The text of the failure. -/
  error : Option String := none
  /-- The thread of the worker has exited. -/
  retired : Bool := false
  /-- The flag that the run loop polls. -/
  flag : Bool := false
  deriving DecidableEq, Repr

/-- The workers of a fleet in order, and whether the fleet was shut down. -/
structure Registry where
  slots : List Slot := []
  down : Bool := false
  deriving DecidableEq, Repr

/-- What a critical section of the registry gives. -/
structure Reply (α : Type) where
  answer : α
  /-- The registry afterwards. -/
  after : Registry
  /-- The threads parked on the registry are woken. -/
  wakes : Bool
  deriving DecidableEq, Repr

/-! ## Changes of one slot -/

namespace Slot

/-- An idle worker with nothing to run. -/
def fresh (lcore : Lcore) : Slot := { lcore }

/-- The worker can take an assignment. -/
def assignable (s : Slot) : Bool := s.state = .idle && s.assignment.isNone

/-- The worker failed and its thread is still there. -/
def recoverable (s : Slot) : Bool := s.state = .error && !s.retired

/-- The worker without its failure. -/
def recover (s : Slot) : Slot := { s with state := .idle, error := none }

/-- The worker after a request to stop. -/
def askToStop (s : Slot) : Slot := { s with state := .stopping, flag := false }

/-- The worker without its assignment. A running one is asked to stop, a failed one
recovers unless it is retired. -/
def release (s : Slot) : Slot :=
  let s := { s with assignment := none }
  if s.state = .running then s.askToStop
  else if s.recoverable then s.recover
  else s

/-- The worker past the start gate. -/
def launch (s : Slot) : Slot := { s with state := .running, flag := true }

/-- The worker after its run loop ended : well, or with a failure. A failure of a unit
that was cleared meanwhile belongs to nothing. -/
def finish (failure : Option String) (s : Slot) : Slot :=
  let s := { s with flag := false }
  match failure with
  | none => { s with state := .idle }
  | some reason =>
    if s.state = .stopping ∧ s.assignment = none then { s with state := .idle }
    else { s with state := .error, error := some reason }

/-- What a retired worker reports. -/
def exitedText : String := "worker thread exited"

/-- The worker after its thread exited. -/
def retire (s : Slot) : Slot :=
  { s with state := .error, retired := true, error := some exitedText }

/-- The worker after a shutdown of the fleet. -/
def shutdown (s : Slot) : Slot :=
  { s with state := if s.state = .running then .stopping else s.state, flag := false }

/-- The worker holds this pipeline. -/
def holdsPipeline (p : Pipeline) (s : Slot) : Bool := s.assignment.any (·.holdsPipeline p)

/-- The worker holds this block. -/
def holdsBlock (b : Block) (s : Slot) : Bool := s.assignment.any (·.holdsBlock b)

end Slot

namespace Registry

/-- One idle worker per core. -/
def ofLcores (lcores : List Lcore) : Registry := { slots := lcores.map Slot.fresh }

/-- The number of workers. -/
def size (r : Registry) : Nat := r.slots.length

/-- The identifiers of the workers in order. -/
def ids (r : Registry) : List Nat := r.slots.map (·.lcore.id)

/-- The position of the first worker with this identifier. -/
def index? (r : Registry) (id : Nat) : Option Nat := r.slots.findIdx? (·.lcore.id = id)

/-- The worker with this identifier. -/
def slot? (r : Registry) (id : Nat) : Option Slot := r.slots.find? (·.lcore.id = id)

/-- Changes the slot at a position. -/
def update (r : Registry) (i : Nat) (f : Slot → Slot) : Registry :=
  { r with slots := r.slots.modify i f }

/-- An answer that leaves the registry as it is. -/
def answer {α : Type} (r : Registry) (a : α) : Reply α := ⟨a, r, false⟩

/-- A refusal leaves the registry as it is. -/
def refuse {α : Type} (r : Registry) (e : Error) : Reply (Except Error α) := r.answer (.error e)

/-! ## Client operations -/

/-- The first worker whose slot satisfies `held`. -/
def holder? (r : Registry) (held : Slot → Bool) : Option Slot := r.slots.find? held

/-- Gives an idle worker with no assignment a unit that no worker holds. -/
def assign (r : Registry) (id : Nat) (a : Assignment) (held : Slot → Bool) :
    Reply (Except Error Unit) :=
  match r.index? id, r.slot? id with
  | some i, some s =>
    if s.assignable then
      match r.holder? held with
      | some other => r.refuse (.alreadyAssigned other.lcore.id a.describe)
      | none => ⟨.ok (), r.update i fun s => { s with assignment := some a }, false⟩
    else r.refuse (.invalidState s.lcore.id s.state)
  | _, _ => r.refuse (.unknownWorker id)

/-- Gives a worker a pipeline, with a timer period in milliseconds. -/
def assignPipeline (r : Registry) (id : Nat) (p : Pipeline) (periodMs : Nat) :
    Reply (Except Error Unit) :=
  r.assign id (.pipeline (.of p periodMs)) (Slot.holdsPipeline p)

/-- Gives a worker a block. -/
def assignBlock (r : Registry) (id : Nat) (b : Block) : Reply (Except Error Unit) :=
  r.assign id (.block b) (Slot.holdsBlock b)

/-- Takes the pipeline away from a worker. A worker that holds none is left alone. -/
def clearPipeline (r : Registry) (id : Nat) : Reply (Except Error Unit) :=
  match r.index? id, r.slot? id with
  | some i, some s =>
    if s.assignment.any Assignment.isPipeline then ⟨.ok (), r.update i Slot.release, true⟩
    else r.answer (.ok ())
  | _, _ => r.refuse (.unknownWorker id)

/-- Takes a block away from the worker that holds it, if there is one. -/
def clearBlock (r : Registry) (b : Block) : Reply Unit :=
  match r.slots.findIdx? (Slot.holdsBlock b) with
  | some i => ⟨(), r.update i Slot.release, true⟩
  | none => r.answer ()

/-- Returns a failed worker to idle with its assignment. -/
def reset (r : Registry) (id : Nat) : Reply (Except Error Unit) :=
  match r.index? id, r.slot? id with
  | some i, some s =>
    if s.recoverable then ⟨.ok (), r.update i Slot.recover, true⟩
    else if s.state = .idle then r.answer (.ok ())
    else r.refuse (.invalidState id s.state)
  | _, _ => r.refuse (.unknownWorker id)

/-- Starts every worker, or none of them if one is not idle. -/
def start (r : Registry) : Reply (Except Error Unit) :=
  match r.slots.find? (·.state ≠ .idle) with
  | some busy => r.refuse (.notReady busy.lcore.id busy.state)
  | none => ⟨.ok (), { r with slots := r.slots.map Slot.launch }, true⟩

/-- The worker after the whole fleet was asked to stop. -/
def stopSlot (s : Slot) : Slot := if s.state = .running then s.askToStop else s

/-- Asks every running worker to stop, and tells how many there were. -/
def stop (r : Registry) : Reply Nat :=
  ⟨r.slots.countP (·.state = .running), { r with slots := r.slots.map stopSlot }, true⟩

/-! ## The worker side -/

/-- What a thread that waits for the start gate learns from one look at the registry. -/
inductive Awakening
  /-- The fleet was shut down. -/
  | closed
  /-- The gate is open : run this. -/
  | go (snapshot : Option Assignment)
  /-- Wait on. -/
  | wait
  deriving DecidableEq, Repr

/-- One look at the registry by the thread of the worker at `i`. A worker that was asked
to stop before its loop ran becomes idle. -/
def awaken (r : Registry) (i : Nat) : Reply Awakening :=
  if r.down then r.answer .closed
  else match r.slots[i]? with
    | some s =>
      match s.state with
      | .running => r.answer (.go s.assignment)
      | .stopping => ⟨.wait, r.update i fun s => { s with state := .idle }, true⟩
      | .idle | .error => r.answer .wait
    | none => r.answer .wait

/-- Records the end of the run loop of the worker at `i`. -/
def finish (r : Registry) (i : Nat) (failure : Option String) : Reply Unit :=
  ⟨(), r.update i (Slot.finish failure), true⟩

/-- Records that the thread of the worker at `i` has exited. -/
def retire (r : Registry) (i : Nat) : Reply Unit := ⟨(), r.update i Slot.retire, true⟩

/-- Stops every worker and closes the start gate for good. -/
def shutdown (r : Registry) : Reply Unit :=
  ⟨(), { slots := r.slots.map Slot.shutdown, down := true }, true⟩

/-! ## Conditions to wait for -/

/-- The worker at `i` is in this state. -/
def inState (r : Registry) (i : Nat) (state : State) : Bool := r.slots[i]?.any (·.state = state)

/-- No worker is stopping. -/
def settled (r : Registry) : Bool := r.slots.all (·.state ≠ .stopping)

/-- There are workers and all of them are running. -/
def allRunning (r : Registry) : Bool := !r.slots.isEmpty && r.slots.all (·.state = .running)

end Registry

end CoreFleet
