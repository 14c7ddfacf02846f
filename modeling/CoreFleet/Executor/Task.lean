import CoreFleet.Executor.Basic

/-!
# Tasks for the main core

The jobs that a coordinator commonly hands to the main core, with their answers.
-/

namespace CoreFleet

/-- A common job. -/
inductive Task (V Q : Type) where
  | give (value : V)
  | panic (p : Payload)
  /-- Sets the context value, and tells whether there was one. -/
  | put (value : V)
  /-- Gives the context value. -/
  | get
  /-- Takes the context value away, and gives it. -/
  | take
  | putThenPanic (value : V) (p : Payload)
  /-- Gives the main core. -/
  | lcore
  /-- Gives the name of the executor's thread. -/
  | threadName
  | stopExecutor
  | ask (request : Q)
  /-- Makes a request between two others, whose replies do not matter. -/
  | askBetween (before request after : Q)

/-- The answer of a task. -/
inductive TaskAnswer (V A : Type) where
  | value (v : V)
  | empty
  | flag (b : Bool)
  | lcore (l : Lcore)
  | name (s : String)
  | stopped
  | reply (a : A)

namespace TaskAnswer

/-- The context value as an answer. -/
def ofValue {V A : Type} : Option V → TaskAnswer V A
  | some v => value v
  | none => empty

end TaskAnswer

/-- The end of a job that has the reply to a request : a fault ends it in a panic. -/
def Job.ofReply {V Q A : Type} (fault? : A → Option Payload) (a : A) :
    Job V Q A (TaskAnswer V A) :=
  match fault? a with
  | some p => .crash p
  | none => .answer (.reply a)

/-- The job of a task, for an executor on this core. -/
def Task.job {V Q A : Type} (lcore : Lcore) (threadName : String) (fault? : A → Option Payload) :
    Task V Q → Job V Q A (TaskAnswer V A)
  | .give v => .answer (.value v)
  | .panic p => .crash p
  | .put v => .look fun old => .put (some v) (.answer (.flag old.isSome))
  | .get => .look fun v => .answer (.ofValue v)
  | .take => .look fun v => .put none (.answer (.ofValue v))
  | .putThenPanic v p => .put (some v) (.crash p)
  | .lcore => .answer (.lcore lcore)
  | .threadName => .answer (.name threadName)
  | .stopExecutor => .stop (.answer .stopped)
  | .ask q => .ask q (Job.ofReply fault?)
  | .askBetween before q after =>
    .ask before fun _ => .ask q fun a => .ask after fun _ => Job.ofReply fault? a

end CoreFleet
