import CoreFleet.Registry.Basic

/-!
# Reports on workers

A report is what a client sees of a worker at one moment, and `Report.text` its line in a
dump of the fleet.
-/

namespace CoreFleet

/-- A worker at one moment. -/
structure Report where
  id : Nat
  state : State
  /-- Kind and name of the assigned unit. -/
  assignment : Option String
  /-- The text of the failure. -/
  error : Option String
  deriving DecidableEq, Repr

/-- The line for a worker. -/
def Report.text (w : Report) : String :=
  "worker " ++ Numeral.text w.id ++ ": " ++ w.state.text ++ ", " ++
    w.assignment.getD "unassigned" ++
    (match w.error with
    | some reason => " (" ++ reason ++ ")"
    | none => "")

/-- The report on a slot. -/
def Slot.report (s : Slot) : Report :=
  ⟨s.lcore.id, s.state, s.assignment.map Assignment.describe, s.error⟩

namespace Registry

/-- The reports on all workers in order. -/
def snapshot (r : Registry) : List Report := r.slots.map Slot.report

/-- The report on a worker. -/
def report? (r : Registry) (id : Nat) : Except Error Report :=
  match r.slot? id with
  | some s => .ok s.report
  | none => .error (.unknownWorker id)

/-- The state of a worker. -/
def state? (r : Registry) (id : Nat) : Except Error State :=
  match r.slot? id with
  | some s => .ok s.state
  | none => .error (.unknownWorker id)

/-- Whether a worker is running. -/
def isRunning? (r : Registry) (id : Nat) : Except Error Bool :=
  (r.state? id).map fun s => decide (s = .running)

end Registry

end CoreFleet
