import CoreFleet.Registry.Operation
import CoreFleet.Worker.Loop

/-!
# A fleet of worker threads

A fleet is a registry together with one thread per worker. A thread waits for the start
gate, runs its assignment until the flag drops or a call does not succeed, reports the
end to the registry and waits again, until the registry is shut down. `Fleet.move` is one
step of one thread, and `Fleet.operate` one critical section of anybody else ; a run of
the fleet interleaves them in any order.

What a step cannot know is part of the move : the clock readings, and how the calls of
units end.
-/

namespace CoreFleet

/-- A registry and the threads of its workers. -/
structure Fleet where
  registry : Registry
  tuning : Tuning := {}
  /-- Where the thread of each worker stands. -/
  phases : List Phase
  /-- The pipelines that nobody outside the fleet, such as their owner, holds any longer. -/
  released : List UnitId := []
  deriving DecidableEq, Repr

/-- One step of a worker's thread. -/
inductive Move
  /-- Looks at the registry while it waits for the start gate. -/
  | look
  /-- Begins the run loop at a clock reading. -/
  | enter (now : Nat)
  /-- Polls the run flag. -/
  | poll
  /-- The call in progress returns ; the reading is taken after it. -/
  | back (outcome : Outcome) (now : Nat)
  /-- Reports the end of the run loop. -/
  | report
  /-- Reports its own end. -/
  | exit
  deriving DecidableEq, Repr

/-- The next move of a thread that stands here, at a clock reading. A call in progress ends
with the given outcome. -/
def Phase.next? (outcome : Outcome) (now : Nat) : Phase → Option Move
  | waiting => some .look
  | entering _ => some (.enter now)
  | looping _ .check => some .poll
  | looping _ .call => some (.back outcome now)
  | looping _ (.timer _) => some (.back outcome now)
  | finishing _ => some .report
  | leaving => some .exit
  | exited => none

namespace Fleet

/-- A fleet with one waiting thread per core. -/
def ofLcores (tuning : Tuning) (lcores : List Lcore) : Fleet :=
  { registry := .ofLcores lcores, tuning, phases := lcores.map fun _ => .waiting }

/-- A pipeline is alive while its owner, or anybody else outside, or a run loop holds it. -/
def alive (f : Fleet) (u : UnitId) : Bool :=
  !f.released.contains u || f.phases.any fun p => p.unit? == some u

/-- The last one outside the fleet who holds a pipeline, its owner, lets go of it. -/
def release (f : Fleet) (u : UnitId) : Fleet := { f with released := u :: f.released }

/-- The run flag of the worker at `i`. -/
def flagAt (f : Fleet) (i : Nat) : Bool := f.registry.slots[i]?.any (·.flag)

/-- Sets the position of the thread of the worker at `i`. -/
def setPhase (f : Fleet) (i : Nat) (p : Phase) : Fleet := { f with phases := f.phases.set i p }

/-- The position of a thread after a look at the registry. -/
def afterLook : Registry.Awakening → Phase
  | .closed => .leaving
  | .go snapshot => .entering snapshot
  | .wait => .waiting

/-- One step of the thread of the worker at `i`, if it can make this one. -/
def move (f : Fleet) (i : Nat) (m : Move) : Option Fleet :=
  match f.phases[i]?, m with
  | some .waiting, .look =>
    let p := f.registry.awaken i
    some { f with registry := p.after, phases := f.phases.set i (afterLook p.answer) }
  | some (.entering snapshot), .enter now =>
    some (f.setPhase i (Loop.enter f.tuning f.alive now snapshot))
  | some (.looping loop .check), .poll => some (f.setPhase i (loop.poll (f.flagAt i)))
  | some (.looping loop .call), .back outcome now =>
    some (f.setPhase i (loop.afterCall outcome now))
  | some (.looping loop (.timer reading)), .back outcome _ =>
    some (f.setPhase i (loop.afterTimer outcome reading))
  | some (.finishing failure), .report =>
    some { f with
      registry := (f.registry.finish i failure).after, phases := f.phases.set i .waiting }
  | some .leaving, .exit =>
    some { f with registry := (f.registry.retire i).after, phases := f.phases.set i .exited }
  | _, _ => none

/-- The next step of the thread of the worker at `i`, if it has one. -/
def turn? (f : Fleet) (i : Nat) (outcome : Outcome) (now : Nat) : Option Fleet :=
  (f.phases[i]?.bind (·.next? outcome now)).bind (f.move i)

/-- A critical section of anybody but the fleet's own threads. -/
def operate (f : Fleet) (op : Operation) : Fleet :=
  { f with registry := (op.perform f.registry).after }

/-- The thread of the worker at `i` has exited. -/
def hasExited (f : Fleet) (i : Nat) : Bool := f.phases[i]?.all (· = .exited)

end Fleet

end CoreFleet
