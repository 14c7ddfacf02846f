import CoreFleet.Registry.Basic

/-!
# Threads that wait on the registry

A thread may wait for the start gate of a worker, for a state of a worker, or until no worker
is stopping (`Wish`). Each look at the registry is one critical section (`Registry.look`),
after which the thread goes on or waits for the next change.

Several threads may wait for the gate at once, also for the same worker. `wakeAll` lets each
of them look at the registry in turn.
-/

namespace CoreFleet

/-- What a thread waits for. -/
inductive Wish
  /-- The start gate of the worker at a position. -/
  | gate (i : Nat)
  /-- A state of the worker with an identifier. -/
  | state (id : Nat) (state : State)
  /-- That no worker is stopping. -/
  | settled
  deriving DecidableEq, Repr

namespace Registry

/-- One look at the registry by a thread that waits : whether its wait is over. The worker of
an identifier is the same at every look. -/
def look (r : Registry) : Wish → Reply (Except Error Bool)
  | .gate i =>
    let p := r.awaken i
    ⟨.ok (p.answer ≠ .wait), p.after, p.wakes⟩
  | .state id state =>
    match r.index? id with
    | some i => r.answer (.ok (r.inState i state))
    | none => r.refuse (.unknownWorker id)
  | .settled => r.answer (.ok r.settled)

/-- Lets waiting threads look at the registry one after another : those that have their
answer, with it, those that wait on, and the registry afterwards. Threads are given by the
positions they wait for. -/
def wakeAll : List Nat → Registry → List (Nat × Awakening) × List Nat × Registry
  | [], r => ([], [], r)
  | i :: rest, r =>
    let p := r.awaken i
    let (released, waiting, r) := wakeAll rest p.after
    match p.answer with
    | .wait => (released, i :: waiting, r)
    | a => ((i, a) :: released, waiting, r)

end Registry

end CoreFleet
