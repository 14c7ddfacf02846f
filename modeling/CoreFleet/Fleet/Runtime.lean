import CoreFleet.Executor.Basic
import CoreFleet.Fleet.Basic
import CoreFleet.Launch.Guard

/-!
# A whole runtime

A runtime is the environment that was brought up, the fleet of its workers, and the
executor of its main core. Its teardown is a sequence of stages (`Teardown`), some of
which wait for other threads ; between two stages any other thread may act.
-/

namespace CoreFleet

/-- A runtime. `V`, `Q`, `A` and `R` are those of its executor. -/
structure Runtime (V Q A R : Type) where
  options : Launch.Options
  fleet : Fleet
  executor : Executor V Q A R

namespace Runtime

variable {V Q A R : Type}

/-- The runtime for launch options : every worker idle, the executor ready. -/
def ofOptions (tuning : Tuning) (options : Launch.Options) : Runtime V Q A R where
  options
  fleet := .ofLcores tuning options.workers
  executor := { lcore := .main options.mainLcore }

/-- The threads that are made for the workers, in order : the identifier of the core, and the
position of the worker that the thread serves. -/
def threads (rt : Runtime V Q A R) : List (Nat × Nat) :=
  rt.options.workers.zipIdx.map fun (l, i) => (l.id, i)

/-- The thread at a position is made for the core of the worker there. -/
theorem getElem?_threads (rt : Runtime V Q A R) (i : Nat) :
    rt.threads[i]? = (rt.options.workers.map (·.id))[i]?.map fun id => (id, i) := by
  rw [threads, List.getElem?_map, List.getElem?_zipIdx, List.getElem?_map]
  cases rt.options.workers[i]? <;> simp

/-- Runs a critical section of the registry. -/
def operate (rt : Runtime V Q A R) (op : Operation) : Runtime V Q A R :=
  { rt with fleet := rt.fleet.operate op }

/-- There are workers, and all of them are running. -/
def isRunning (rt : Runtime V Q A R) : Bool := rt.fleet.registry.allRunning

/-- The identifiers of the workers that are stopping. -/
def stuck (rt : Runtime V Q A R) : List Nat :=
  (rt.fleet.registry.slots.filter (·.state = .stopping)).map (·.lcore.id)

end Runtime

/-- Where the teardown of a runtime stands. -/
inductive Teardown
  /-- About to ask the workers to stop. -/
  | stop
  /-- Waits until no worker is stopping, or for the timeout. -/
  | settle
  /-- The timeout expired : about to note which workers are stuck. -/
  | inspect
  /-- About to shut the registry down, with these workers left detached. -/
  | close (stuck : List Nat)
  /-- About to stop the executor. -/
  | drain (stuck : List Nat)
  /-- Waits for the end of the executor's thread. -/
  | await (stuck : List Nat)
  /-- Waits for the threads of these positions, of which the stuck ones are passed over. -/
  | join (stuck : List Nat) (positions : List Nat)
  /-- About to shut the registry down once more. -/
  | reclose
  /-- About to give the environment back. -/
  | release
  | done
  deriving DecidableEq, Repr

namespace Teardown

/-- The teardown with a time limit for the workers to stop. -/
def shutdown : Teardown := .stop

/-- The worker at a position is among the stuck ones. -/
def isStuck (f : Fleet) (stuck : List Nat) (i : Nat) : Bool :=
  f.registry.slots[i]?.any fun s => stuck.contains s.lcore.id

/-- One stage of the teardown, if it need not wait. `timedOut` tells that the time for
the workers to stop is over. The step from `release` to `done` gives the environment
back. -/
def step? {V Q A R : Type} (rt : Runtime V Q A R) (timedOut : Bool) :
    Teardown → Option (Runtime V Q A R × Teardown)
  | .stop => some (rt.operate .stop, .settle)
  | .settle =>
    if rt.fleet.registry.settled then some (rt, .close [])
    else if timedOut then some (rt, .inspect)
    else none
  | .inspect => some (rt, .close rt.stuck)
  | .close stuck => some (rt.operate .shutdown, .drain stuck)
  | .drain stuck =>
    let wait := rt.executor.joinable
    some ({ rt with executor := rt.executor.close },
      if wait then .await stuck else .join stuck (List.range rt.fleet.phases.length))
  | .await stuck =>
    if rt.executor.ended then some (rt, .join stuck (List.range rt.fleet.phases.length))
    else none
  | .join _ [] => some (rt, .reclose)
  | .join stuck (i :: rest) =>
    if isStuck rt.fleet stuck i || rt.fleet.hasExited i then some (rt, .join stuck rest)
    else none
  | .reclose => some (rt.operate .shutdown, .release)
  | .release => some (rt, .done)
  | .done => none

end Teardown

end CoreFleet
