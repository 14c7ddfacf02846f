import CoreFleet.Errno
import CoreFleet.Registry.State
import CoreFleet.Text.Numeral

/-!
# Errors of the fleet

Each error carries its cause. `Error.message` is its wording and `Error.errno` the error
number it is reported under.
-/

namespace CoreFleet

/-- Why an operation was refused. -/
inductive Error
  /-- No worker has this identifier. -/
  | unknownWorker (id : Nat)
  /-- The worker cannot take an assignment. -/
  | invalidState (id : Nat) (state : State)
  /-- The unit is held by this worker. -/
  | alreadyAssigned (id : Nat) (unit : String)
  /-- The worker keeps the start gate shut. -/
  | notReady (id : Nat) (state : State)
  /-- The environment could not be brought up. -/
  | initialization (errno : Errno) (reason : String)
  /-- A job of the main core panicked. -/
  | jobPanic (text : String)
  /-- The executor of the main core takes no more jobs. -/
  | executorStopped
  deriving DecidableEq, Repr

namespace Error

/-- The wording of an error. -/
def message : Error → String
  | unknownWorker id => "unknown worker " ++ Numeral.text id
  | invalidState id state =>
    "worker " ++ Numeral.text id ++ " is " ++ state.text ++ " and cannot accept an assignment"
  | alreadyAssigned id unit => unit ++ " already enabled on worker " ++ Numeral.text id
  | notReady id state =>
    "worker " ++ Numeral.text id ++ " is " ++ state.text ++ ", fleet not started"
  | initialization _ reason => "runtime initialization failed: " ++ reason
  | jobPanic text => "main lcore job " ++ text
  | executorStopped => "main lcore executor stopped"

/-- The error number of an error. -/
def errno : Error → Errno
  | unknownWorker _ => .enodev
  | invalidState _ _ => .einval
  | alreadyAssigned _ _ => .eexist
  | notReady _ _ => .ebusy
  | initialization errno _ => errno
  | jobPanic _ => .ecanceled
  | executorStopped => .eshutdown

/-- The negated error number, as a caller receives it. -/
def raw (e : Error) : Int := -(e.errno.code : Int)

end Error

end CoreFleet
