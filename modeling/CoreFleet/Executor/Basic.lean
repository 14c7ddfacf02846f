import CoreFleet.Error
import CoreFleet.Lcore
import CoreFleet.Work.Outcome

/-!
# The executor of the main core

Jobs for the main core are queued and run one at a time in the order in which they were
accepted. All jobs share one context value. Each submission has a ticket, under which
exactly one reply arrives : the job's own answer, the panic it ended in, or a refusal if
the executor was stopped before. A stopped executor still runs the jobs it had accepted.

A job is a tree of steps (`Job`), so that other threads may act between two of them. The
type `V` is the type of the context value, `Q` and `A` are those of the requests a job
makes of its surroundings and of their replies, and `R` is the type of a job's answer.
-/

namespace CoreFleet

/-- A job of the main core. -/
inductive Job (V Q A R : Type) where
  /-- Ends with an answer. -/
  | answer (r : R)
  /-- Ends in a panic. -/
  | crash (p : Payload)
  /-- Reads the context value. -/
  | look (next : Option V → Job V Q A R)
  /-- Sets or takes away the context value. -/
  | put (value : Option V) (next : Job V Q A R)
  /-- Stops the executor from within. -/
  | stop (next : Job V Q A R)
  /-- Makes a request of the surroundings. -/
  | ask (request : Q) (next : A → Job V Q A R)

/-- The executor and the jobs it was given. -/
structure Executor (V Q A R : Type) where
  lcore : Lcore
  /-- Jobs are still accepted. -/
  accepting : Bool := true
  /-- Nobody has taken the handle of the executor's thread. -/
  joinable : Bool := true
  /-- The accepted jobs that were not begun, with their tickets. -/
  queue : List (Nat × Job V Q A R) := []
  /-- What is left of the job that runs. -/
  current : Option (Nat × Job V Q A R) := none
  /-- The context value. -/
  value : Option V := none
  /-- The ticket of the next submission. -/
  issued : Nat := 0
  /-- The replies that were sent, in order. -/
  replies : List (Nat × Except Error R) := []
  /-- The tickets whose reply nobody waits for. -/
  abandoned : List Nat := []
  /-- The executor's thread has ended. -/
  ended : Bool := false

namespace Executor

variable {V Q A R : Type}

/-- The name of the executor's thread. -/
def threadName (e : Executor V Q A R) : String := "swx-main-lcore-" ++ Numeral.text e.lcore.id

/-- Sends a reply, unless its ticket was abandoned. -/
def reply (e : Executor V Q A R) (ticket : Nat) (r : Except Error R) : Executor V Q A R :=
  if ticket ∈ e.abandoned then e else { e with replies := e.replies ++ [(ticket, r)] }

/-- Submits a job, and gives its ticket. -/
def submit (e : Executor V Q A R) (job : Job V Q A R) : Nat × Executor V Q A R :=
  let e' := { e with issued := e.issued + 1 }
  if e.accepting then (e.issued, { e' with queue := e.queue ++ [(e.issued, job)] })
  else (e.issued, e'.reply e.issued (.error .executorStopped))

/-- Lets the reply to a ticket go to nobody. -/
def abandon (e : Executor V Q A R) (ticket : Nat) : Executor V Q A R :=
  { e with abandoned := ticket :: e.abandoned }

/-- The reply to a ticket, if it was sent. -/
def reply? (e : Executor V Q A R) (ticket : Nat) : Option (Except Error R) :=
  (e.replies.find? fun r => r.1 = ticket).map Prod.snd

/-- The executor after the sender of its queue is taken away. -/
def hangUp (e : Executor V Q A R) : Executor V Q A R := { e with accepting := false }

/-- The executor after the handle of its thread is taken. -/
def takeHandle (e : Executor V Q A R) : Executor V Q A R := { e with joinable := false }

/-- Accepts no more jobs, and takes the handle of the thread. -/
def close (e : Executor V Q A R) : Executor V Q A R :=
  { e with accepting := false, joinable := false }

/-- The request that the running job waits on. -/
def request? (e : Executor V Q A R) : Option Q :=
  match e.current with
  | some (_, .ask q _) => some q
  | _ => none

/-- Hands the running job the reply to its request. -/
def resume (e : Executor V Q A R) (a : A) : Executor V Q A R :=
  match e.current with
  | some (ticket, .ask _ next) => { e with current := some (ticket, next a) }
  | _ => e

/-- One step of the executor's thread by itself : begin the next job, make a step of the
running one, or end. It makes none while the running job waits on a request, while there
is nothing to do, and after its end. -/
def step? (e : Executor V Q A R) : Option (Executor V Q A R) :=
  match e.current with
  | some (ticket, job) =>
    match job with
    | .answer r => some ({ e with current := none }.reply ticket (.ok r))
    | .crash p => some ({ e with current := none }.reply ticket (.error (.jobPanic p.describe)))
    | .look next => some { e with current := some (ticket, next e.value) }
    | .put value next => some { e with value, current := some (ticket, next) }
    | .stop next => some { e.close with current := some (ticket, next) }
    | .ask .. => none
  | none =>
    match e.queue with
    | next :: rest => some { e with queue := rest, current := some next }
    | [] => if e.accepting || e.ended then none else some { e with ended := true }

/-- Lets the executor's thread go on until it has nothing to do, or waits on a request that
`host` does not answer yet, for at most so many steps. -/
def advance {σ : Type} (host : Q → σ → Option (A × σ)) :
    Nat → Executor V Q A R → σ → Executor V Q A R × σ
  | 0, e, s => (e, s)
  | steps + 1, e, s =>
    match e.step?, e.request? with
    | some e, _ => advance host steps e s
    | none, some q =>
      match host q s with
      | some (a, s) => advance host steps (e.resume a) s
      | none => (e, s)
    | none, none => (e, s)

end Executor

end CoreFleet
