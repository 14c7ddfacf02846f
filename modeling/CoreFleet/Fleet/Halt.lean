import CoreFleet.Fleet.Basic
import CoreFleet.Work.Clock

/-!
# Stopping a fleet

Whoever stops a fleet asks its workers to stop and then waits until none of them is stopping, for a
limited time. The waiting thread looks at the registry, parks until somebody wakes it, and looks
again. When it wakes up because its time is over it looks once more, and this look decides.

`Halt` is where such a call stands, and between two of its steps anybody else may act.
-/

namespace CoreFleet

/-- Where a call that stops a fleet stands. -/
inductive Halt
  /-- About to ask the workers to stop, with this time for them. -/
  | ask (timeout : Nat)
  /-- About to read the clock, from which on the time counts. -/
  | time (timeout : Nat)
  /-- About to look at the registry. Without a deadline the wait has no limit. -/
  | look (deadline : Option Nat)
  /-- Parked, until it is woken or the deadline has passed. -/
  | parked (deadline : Option Nat)
  /-- The deadline has passed : about to look at the registry for the last time. -/
  | late
  /-- Has its answer : whether every worker has settled in time. -/
  | answered (settled : Bool)
  deriving DecidableEq, Repr

namespace Halt

/-- The next step of the call, if it need not wait. `now` is what the clock reads, and `woken` tells
that a parked thread wakes up before its time is over, for whatever reason. -/
def step? (f : Fleet) (now : Nat) (woken : Bool) : Halt → Option (Fleet × Halt)
  | ask timeout => some (f.operate .stop, time timeout)
  | time timeout => some (f, look (Clock.after? now timeout))
  | look deadline => some (f, if f.registry.settled then answered true else parked deadline)
  | parked deadline =>
    if woken then some (f, look deadline)
    else if deadline.any (· ≤ now) then some (f, late)
    else none
  | late => some (f, answered f.registry.settled)
  | answered _ => none

end Halt

end CoreFleet
