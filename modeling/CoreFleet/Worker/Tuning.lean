/-!
# Tuning of the run loop
-/

namespace CoreFleet

/-- How the workers run their units. -/
structure Tuning where
  /-- The instructions that a pipeline may execute in one call. -/
  pipelineQuanta : Nat := 1000
  /-- The number of pipeline calls between two looks at the timer. -/
  controlInterval : Nat := 16
  /-- How long a worker with no unit sleeps between two looks at its run flag, in
  microseconds. -/
  idlePollUs : Nat := 1000
  deriving DecidableEq, Repr

namespace Tuning

/-- Sets the instructions of one pipeline call, at least one. -/
def withPipelineQuanta (t : Tuning) (n : Nat) : Tuning := { t with pipelineQuanta := max n 1 }

/-- Sets the calls between two looks at the timer, at least one. -/
def withControlInterval (t : Tuning) (n : Nat) : Tuning := { t with controlInterval := max n 1 }

/-- Sets the sleep of an idle worker. -/
def withIdlePoll (t : Tuning) (us : Nat) : Tuning := { t with idlePollUs := us }

end Tuning

end CoreFleet
