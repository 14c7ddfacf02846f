import CoreFleet.Work.Clock
import CoreFleet.Work.Outcome

/-!
# Periodic blocks

A periodic block lets a call through to the block inside it at most once per period : the
first call, and then each call whose clock reading has reached the due time. The due time
is set before the inner block runs, so that a failure inside does not change the schedule.
-/

namespace CoreFleet

/-- When the inner block may run next. -/
inductive Due
  | now
  | at (reading : Nat)
  | never
  deriving DecidableEq, Repr

/-- The schedule of a periodic block. -/
structure Periodic where
  /-- The period as a duration. -/
  period : Nat
  due : Due := .now
  deriving DecidableEq, Repr

namespace Periodic

/-- A call at this reading is let through. -/
def isDue (p : Periodic) (reading : Nat) : Bool :=
  match p.due with
  | .now => true
  | .at deadline => deadline ≤ reading
  | .never => false

/-- The due time after a call let through at this reading. -/
def nextDue (p : Periodic) (reading : Nat) : Due :=
  match Clock.after? reading p.period with
  | some deadline => .at deadline
  | none => .never

/-- A call at a clock reading : whether it is let through, and the schedule after it. -/
def call (p : Periodic) (reading : Nat) : Bool × Periodic :=
  if p.isDue reading then (true, { p with due := p.nextDue reading }) else (false, p)

/-- A call together with the inner block, which has a state : how it ends, and the schedule and
the state afterwards. -/
def run {σ : Type} (inner : σ → Outcome × σ) (reading : Nat) (p : Periodic) (s : σ) :
    Outcome × Periodic × σ :=
  match p.call reading with
  | (true, after) => ((inner s).1, after, (inner s).2)
  | (false, after) => (.ok, after, s)

end Periodic

end CoreFleet
