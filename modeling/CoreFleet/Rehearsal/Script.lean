import CoreFleet.Work.Basic
import CoreFleet.Work.Outcome
import CoreFleet.Work.Periodic

/-!
# Scripted units

To rehearse a fleet its units are replaced by scripted ones. The script of a unit lists
how its calls end, how long they take, and which of them wait at the unit's gate ; when it
is used up every call succeeds. A scripted unit counts the calls it received.
-/

namespace CoreFleet.Rehearsal

/-- The least time any call takes. -/
def shortest : Nat := 100

/-- The time of a call after the end of the script, and of one that a periodic block does
not let through. -/
def restTime : Nat := 50 * Clock.micros

/-- One scripted call. -/
structure ScriptedCall where
  outcome : Outcome := .ok
  /-- The call first waits at the gate. -/
  gated : Bool := false
  /-- The time the call takes, after the gate. -/
  time : Nat := shortest
  deriving DecidableEq, Repr

/-- The calls to come, each with the number of times it is repeated. -/
abbrev Script := List (Nat × ScriptedCall)

/-- The next call of a script and the script after it. -/
def nextCall : Script → Option (ScriptedCall × Script)
  | [] => none
  | (0, _) :: rest => nextCall rest
  | (n + 1, call) :: rest => some (call, (n, call) :: rest)

/-- What is counted of the calls of a unit. -/
inductive Count
  | runs
  | timers
  /-- The calls that have reached the gate. -/
  | arrivals
  deriving DecidableEq, Repr

/-- A call that succeeds at once. -/
def ScriptedCall.isPlain (c : ScriptedCall) : Bool :=
  c.outcome = .ok && !c.gated && c.time ≤ shortest

/-- Takes up to `limit` further calls like the one just taken from the front of a script :
their number, and the script after them. -/
def takeMore (limit : Nat) : Script → Nat × Script
  | (n, call) :: rest => (min limit n, (n - limit, call) :: rest)
  | [] => (0, [])

/-- A unit that follows a script. -/
structure ScriptedUnit where
  name : String
  /-- The schedule of a block that is called periodically. -/
  periodic : Option Periodic := none
  run : Script := []
  /-- The script of the timer, of a pipeline that has a timer of its own. -/
  timer : Option Script := none
  runCalls : Nat := 0
  timerCalls : Nat := 0
  /-- The quanta that calls received, each once, in the order of their first calls. -/
  quanta : List Nat := []
  /-- The number of calls that have reached the gate. -/
  arrived : Nat := 0
  /-- The number of calls that may pass the gate. -/
  permits : Nat := 0
  /-- The owner holds the unit. -/
  owned : Bool := true
  deriving DecidableEq, Repr

namespace ScriptedUnit

/-- Adds a number at the end of a list, unless it is there. -/
def note (n : Nat) (seen : List Nat) : List Nat := if n ∈ seen then seen else seen ++ [n]

/-- Notes a number of calls, with the quanta that they receive, if any. -/
def countRuns (u : ScriptedUnit) (n : Nat) (quanta? : Option Nat) : ScriptedUnit :=
  { u with
    runCalls := u.runCalls + n
    quanta := match quanta? with
      | some quanta => note quanta u.quanta
      | none => u.quanta }

/-- Begins calls at a clock reading, with the quanta they receive, if any : the call, and
the number of calls like it that follow at once, at most `limit`. Only calls that succeed
at once have others follow. -/
def beginRuns (u : ScriptedUnit) (reading : Nat) (quanta? : Option Nat) (limit : Nat) :
    ScriptedCall × Nat × ScriptedUnit :=
  let (due, periodic) := match u.periodic with
    | some p => let (due, p) := p.call reading; (due, some p)
    | none => (true, none)
  let u := { u with periodic }
  if due then
    match nextCall u.run with
    | some (call, run) =>
      let (more, run) :=
        if call.isPlain && u.periodic.isNone then takeMore limit run else (0, run)
      (call, more, { u with run }.countRuns (more + 1) quanta?)
    | none => ({ time := restTime }, 0, u.countRuns 1 quanta?)
  else ({ time := restTime }, 0, u)

/-- No more calls follow than the limit, and they follow only one that succeeds at once. -/
theorem beginRuns_more (u : ScriptedUnit) (reading : Nat) (quanta? : Option Nat) (limit : Nat) :
    (u.beginRuns reading quanta? limit).2.1 ≤ limit ∧
      (0 < (u.beginRuns reading quanta? limit).2.1 →
        (u.beginRuns reading quanta? limit).1.isPlain) := by
  have hmore (run : Script) : (takeMore limit run).1 ≤ limit := by
    cases run with
    | nil => exact Nat.zero_le _
    | cons => exact Nat.min_le_left ..
  unfold beginRuns
  grind

/-- Begins a timer call. -/
def beginTimer (u : ScriptedUnit) : ScriptedCall × ScriptedUnit :=
  match u.timer with
  | some script =>
    let u := { u with timerCalls := u.timerCalls + 1 }
    match nextCall script with
    | some (call, script) => (call, { u with timer := some script })
    | none => ({}, u)
  | none => ({}, u)

/-- A call reaches the gate, and receives its number. -/
def arrive (u : ScriptedUnit) : Nat × ScriptedUnit :=
  (u.arrived + 1, { u with arrived := u.arrived + 1 })

/-- How many calls of a kind there were. -/
def count (u : ScriptedUnit) : Count → Nat
  | .runs => u.runCalls
  | .timers => u.timerCalls
  | .arrivals => u.arrived

/-- Lets one more call pass the gate. -/
def openGate (u : ScriptedUnit) : ScriptedUnit := { u with permits := u.permits + 1 }

/-- The unit as a pipeline with this identity. -/
def asPipeline (u : ScriptedUnit) (id : UnitId) : Pipeline := ⟨id, u.name⟩

/-- The unit as a block with this identity. -/
def asBlock (u : ScriptedUnit) (id : UnitId) : Block := ⟨id, u.name⟩

/-- Calls a block directly at a clock reading : how the call ends, and the reading after
it. -/
def callBlock (u : ScriptedUnit) (reading : Nat) : Outcome × Nat × ScriptedUnit :=
  let (call, _, u) := u.beginRuns reading none 0
  (call.outcome, reading + max shortest call.time, u)

/-- A call of the block inside a periodic one : how it ends, the script after it, and the number
of calls with it. -/
def callInner (s : Script × Nat) : Outcome × Script × Nat :=
  match nextCall s.1 with
  | some (call, script) => (call.outcome, script, s.2 + 1)
  | none => (.ok, s.1, s.2 + 1)

/-- A direct call of a periodic block is a run of its schedule around the script. -/
theorem callBlock_of_periodic {u : ScriptedUnit} {p : Periodic} (h : u.periodic = some p)
    (reading : Nat) :
    p.run callInner reading (u.run, u.runCalls) =
      ((u.callBlock reading).1, (u.callBlock reading).2.2.periodic.getD p,
        (u.callBlock reading).2.2.run, (u.callBlock reading).2.2.runCalls) := by
  cases hcall : p.call reading with
  | mk due next =>
    cases due with
    | false => simp [callBlock, beginRuns, Periodic.run, h, hcall]
    | true =>
      cases hscript : nextCall u.run with
      | none => simp [callBlock, beginRuns, Periodic.run, callInner, countRuns, h, hcall, hscript]
      | some next =>
        simp [callBlock, beginRuns, Periodic.run, callInner, countRuns, h, hcall, hscript]

end ScriptedUnit

/-- The name of a block that was given none. -/
def defaultBlockName : String := "block"

end CoreFleet.Rehearsal
