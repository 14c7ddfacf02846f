import CoreFleet.Fleet.Halt
import CoreFleet.Fleet.Runtime

/-!
# The end of a runtime

A runtime is shut down with a limited time for its workers, or dropped with no limit. A shutdown
stops the fleet and notes which workers are stuck if they do not settle in time. Then it shuts the
registry down, stops the executor, and waits for the threads of all workers but the stuck ones. At
its end the runtime is dropped, which does all this once more for what is left, and gives the
environment back.

`Disposal` is where this stands, and between two of its steps anybody else may act. `Teardown` tells
of a shutdown in fewer stages.
-/

namespace CoreFleet

namespace Disposal

/-- Why the registry is shut down and the threads are waited for. -/
inductive Pass
  /-- The runtime is shut down, and these workers are stuck. -/
  | shutdown (stuck : List Nat)
  /-- The runtime is dropped. -/
  | drop
  deriving DecidableEq, Repr

/-- The workers whose threads are left detached. -/
def Pass.skips : Pass → List Nat
  | shutdown stuck => stuck
  | drop => []

/-- A stage of the disposal. -/
inductive Stage
  /-- Stops the fleet. -/
  | halt (call : Halt)
  /-- The workers have not settled in time : about to note which of them are stopping. -/
  | inspect
  /-- About to shut the registry down. -/
  | close (pass : Pass)
  /-- About to take the sender of the executor's queue away. -/
  | hangUp (pass : Pass)
  /-- About to take the handle of the executor's thread. -/
  | takeHandle (pass : Pass)
  /-- Waits for the end of the executor's thread. -/
  | await (pass : Pass)
  /-- Waits for the threads of the workers, one after another. -/
  | join (pass : Pass)
  /-- About to give the environment back. -/
  | release
  | done
  deriving DecidableEq, Repr

end Disposal

/-- The disposal of a runtime. -/
structure Disposal where
  /-- The threads that were neither waited for nor left detached so far : the identifier of the core
  and the position of the worker. -/
  handles : List (Nat × Nat)
  /-- The environment is up. -/
  initialized : Bool := true
  stage : Disposal.Stage

namespace Disposal

variable {V Q A R : Type}

/-- The disposal of a runtime that is shut down with this time for its workers, or dropped. -/
def ofRuntime (rt : Runtime V Q A R) : Option Nat → Disposal
  | some timeout => { handles := rt.threads, stage := .halt (.ask timeout) }
  | none => { handles := rt.threads, stage := .close .drop }

/-- The next step of the disposal, if it need not wait. The executor's thread is waited for by
whoever has taken its handle. -/
def step? (rt : Runtime V Q A R) (now : Nat) (woken : Bool) (d : Disposal) :
    Option (Runtime V Q A R × Disposal) :=
  match d.stage with
  | .halt (.answered true) => some (rt, { d with stage := .close (.shutdown []) })
  | .halt (.answered false) => some (rt, { d with stage := .inspect })
  | .halt call =>
    (call.step? rt.fleet now woken).map fun (fleet, call) =>
      ({ rt with fleet }, { d with stage := .halt call })
  | .inspect => some (rt, { d with stage := .close (.shutdown rt.stuck) })
  | .close pass => some (rt.operate .shutdown, { d with stage := .hangUp pass })
  | .hangUp pass =>
    some ({ rt with executor := rt.executor.hangUp }, { d with stage := .takeHandle pass })
  | .takeHandle pass =>
    some ({ rt with executor := rt.executor.takeHandle },
      { d with stage := if rt.executor.joinable then .await pass else .join pass })
  | .await pass => if rt.executor.ended then some (rt, { d with stage := .join pass }) else none
  | .join pass =>
    match d.handles with
    | (id, i) :: handles =>
      if id ∈ pass.skips ∨ rt.fleet.hasExited i then some (rt, { d with handles }) else none
    | [] =>
      match pass with
      | .shutdown _ => some (rt, { d with stage := .close .drop })
      | .drop => some (rt, { d with stage := .release })
  | .release => some (rt, { d with initialized := false, stage := .done })
  | .done => none

end Disposal

end CoreFleet
