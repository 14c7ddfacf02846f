import CoreFleet.Executor.Basic

/-!
# Stopping an executor

Whoever stops an executor takes the sender of its queue away, and then the handle of its thread. The
two are kept under locks of their own, so that others act in between, and of several calls one may
get the sender and another one the handle. Whoever gets the handle waits for the end of the thread,
unless it is this thread itself : a job may stop the executor that runs it.

`StopCall` is where such a call stands. A `Closing` is an executor with the calls that stop it,
those of other threads and the one of the running job.
-/

namespace CoreFleet

variable {V Q A R : Type}

/-- Where a call that stops an executor stands. -/
inductive StopCall
  /-- About to take the sender of the queue away. -/
  | hangUp
  /-- About to take the handle of the executor's thread. -/
  | takeHandle
  /-- Has the handle, and waits for the end of the thread. -/
  | await
  | returned
  deriving DecidableEq, Repr

/-- The next step of the call, if it need not wait. A call by the executor's thread itself (`own`)
does not wait for the end of this thread. -/
def StopCall.step? (own : Bool) (e : Executor V Q A R) :
    StopCall → Option (Executor V Q A R × StopCall)
  | hangUp => some (e.hangUp, takeHandle)
  | takeHandle => some (e.takeHandle, if e.joinable && !own then await else returned)
  | await => if e.ended then some (e, returned) else none
  | returned => none

/-- An executor with the calls that stop it. -/
structure Closing (V Q A R : Type) where
  executor : Executor V Q A R
  /-- The calls by other threads than the executor's. -/
  calls : List StopCall := []
  /-- Where the running job stands in its call, when stopping the executor is what it does next. -/
  inner : StopCall := .hangUp

namespace Closing

/-- One step of the executor's thread by itself. A job that stops the executor makes one step of its
call, and goes on when the call has returned. -/
def work? (c : Closing V Q A R) : Option (Closing V Q A R) :=
  match c.executor.current with
  | some (ticket, .stop next) =>
    (c.inner.step? true c.executor).map fun (e, call) =>
      if call = .returned then
        { c with executor := { e with current := some (ticket, next) }, inner := .hangUp }
      else { c with executor := e, inner := call }
  | _ => c.executor.step?.map fun executor => { c with executor }

/-- Another thread than the executor's calls to stop the executor. -/
def call (c : Closing V Q A R) : Closing V Q A R := { c with calls := c.calls ++ [.hangUp] }

/-- The next step of the `k`-th call by another thread, if there is one and it need not wait. -/
def proceed? (c : Closing V Q A R) (k : Nat) : Option (Closing V Q A R) :=
  c.calls[k]?.bind fun call =>
    (call.step? false c.executor).map fun (executor, call) =>
      { c with executor, calls := c.calls.set k call }

end Closing

end CoreFleet
