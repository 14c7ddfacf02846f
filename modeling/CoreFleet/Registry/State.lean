/-!
# States of a worker
-/

namespace CoreFleet

/-- The lifecycle state of a worker. -/
inductive State
  /-- Waits for the start gate. -/
  | idle
  /-- Has passed the start gate. -/
  | running
  /-- Was asked to stop and has not answered yet. -/
  | stopping
  /-- Holds a failure. -/
  | error
  deriving DecidableEq, Repr

/-- The word for a state. -/
def State.text : State → String
  | .idle => "idle"
  | .running => "running"
  | .stopping => "stopping"
  | .error => "error"

end CoreFleet
