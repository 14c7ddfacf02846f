import CoreFleet.Worker.Tuning
import CoreFleet.Work.Basic
import CoreFleet.Work.Outcome

/-!
# The run loop of a worker

A run loop polls its flag, makes one call, and polls again, until the flag is down or a
call does not succeed. For a pipeline a look at its timer follows every so many calls
(`TimerGate`) : the calls are counted in a 32-bit word that wraps, and the timer is called
when a period has passed since its last call, or since the loop began.

`Phase` is the position of a worker's thread, in the run loop and around it.
-/

namespace CoreFleet

/-! ## The timer of a pipeline -/

/-- When the timer of a pipeline is looked at and called. -/
structure TimerGate where
  /-- The number of calls between two looks, at least one. -/
  interval : Nat
  /-- The timer period as a duration. -/
  period : Nat
  /-- The number of calls so far, in a 32-bit word. -/
  count : Nat
  /-- The reading from which on the timer is called. -/
  deadline : Nat
  deriving DecidableEq, Repr

namespace TimerGate

/-- The gate of a loop that begins at a clock reading. An interval of zero is taken as
one. -/
def start (interval period now : Nat) : TimerGate := ⟨max interval 1, period, 0, now + period⟩

/-- Counts a call. -/
def tick (g : TimerGate) : TimerGate := { g with count := (g.count + 1) % Numeral.wordBound }

/-- Counts several calls. -/
def ticks (g : TimerGate) (n : Nat) : TimerGate :=
  { g with count := (g.count + n) % Numeral.wordBound }

/-- Counting several calls is counting one after another. -/
theorem ticks_succ (g : TimerGate) (n : Nat) : g.ticks (n + 1) = (g.ticks n).tick := by
  simp only [ticks, tick, Nat.mod_add_mod, Nat.add_assoc]

/-- The timer is looked at after this call. -/
def looks (g : TimerGate) : Bool := g.count % g.interval = 0

/-- A look at this reading finds the timer due. -/
def isDue (g : TimerGate) (now : Nat) : Bool := g.deadline ≤ now

/-- How many calls of equal length may follow a clock reading so that before the last of
them no look finds the timer due : as many as end before the deadline, or as lead to the
next look. -/
def quietCalls (g : TimerGate) (time now : Nat) : Nat :=
  max ((g.deadline - now - 1) / time)
    (min (g.interval - g.count % g.interval) (Numeral.wordBound - g.count))

theorem quiet_of_lt_quietCalls {g : TimerGate} {time now n : Nat} (hn : 0 < n) (ht : 0 < time)
    (h : n < g.quietCalls time now) : ((g.ticks n).looks && g.isDue (now + n * time)) = false := by
  rcases Nat.lt_or_ge n ((g.deadline - now - 1) / time) with hd | hd
  · have := (Nat.le_div_iff_mul_le ht).1 (Nat.le_of_lt hd)
    have : 0 < n * time := Nat.mul_pos hn ht
    simp only [isDue, Bool.and_eq_false_iff, decide_eq_false_iff_not]
    omega
  · have hl : n < min (g.interval - g.count % g.interval) (Numeral.wordBound - g.count) := by
      simp only [quietCalls] at h; omega
    have hw : g.count + n < Numeral.wordBound := by omega
    have hi : g.count % g.interval + n < g.interval := by omega
    have : (g.count + n) % g.interval = g.count % g.interval + n := by
      rw [← Nat.mod_add_mod, Nat.mod_eq_of_lt hi]
    simp only [looks, ticks, Nat.mod_eq_of_lt hw, this, Bool.and_eq_false_iff,
      decide_eq_false_iff_not]
    omega

/-- The gate after a timer call for a look at this reading. -/
def reset (g : TimerGate) (now : Nat) : TimerGate := { g with deadline := now + g.period }

end TimerGate

/-! ## Positions of a thread -/

/-- What a run loop runs. -/
inductive Loop
  | pipeline (ref : PipelineRef) (gate : TimerGate)
  | block (b : Block)
  /-- The worker has no unit and sleeps. -/
  | idle
  deriving DecidableEq, Repr

/-- The unit a run loop runs. -/
def Loop.unit? : Loop → Option UnitId
  | pipeline ref _ => some ref.id
  | block b => some b.id
  | idle => none

/-- The loop after several calls that succeeded, at none of which the timer was due. -/
def Loop.ticks (loop : Loop) (n : Nat) : Loop :=
  match loop with
  | pipeline ref gate => pipeline ref (gate.ticks n)
  | loop => loop

/-- Counting several calls is counting one after another. -/
theorem Loop.ticks_succ (loop : Loop) (n : Nat) : loop.ticks (n + 1) = (loop.ticks n).ticks 1 := by
  cases loop with
  | pipeline ref gate => exact congrArg (pipeline ref) (gate.ticks_succ n)
  | block b => rfl
  | idle => rfl

/-- How many calls of equal length may follow a clock reading so that before the last of
them no timer is called, at most `limit`. -/
def Loop.quietCalls (loop : Loop) (time now limit : Nat) : Nat :=
  match loop with
  | pipeline _ gate => min limit (gate.quietCalls time now)
  | _ => limit

/-- The instructions that a call of this loop may execute. Only calls of a pipeline have
such a limit. -/
def Loop.quanta? (tuning : Tuning) : Loop → Option Nat
  | pipeline .. => some tuning.pipelineQuanta
  | _ => none

/-- Where a run loop stands. -/
inductive Point
  /-- About to poll the run flag. -/
  | check
  /-- Inside a call of the unit, or asleep. -/
  | call
  /-- Inside the timer call that follows a look at this reading. -/
  | timer (reading : Nat)
  deriving DecidableEq, Repr

/-- Where the thread of a worker stands. -/
inductive Phase
  /-- Waits for the start gate. -/
  | waiting
  /-- Has passed the gate with this assignment. -/
  | entering (snapshot : Option Assignment)
  | looping (loop : Loop) (point : Point)
  /-- Its loop ended, well or with a failure, and it has not said so yet. -/
  | finishing (failure : Option String)
  /-- Has learnt of the shutdown. -/
  | leaving
  | exited
  deriving DecidableEq, Repr

namespace Phase

/-- The unit in whose run loop the thread is. -/
def unit? : Phase → Option UnitId
  | looping loop _ => loop.unit?
  | _ => none

end Phase

/-! ## Steps of the loop -/

/-- The failure of a loop whose pipeline is gone. -/
def PipelineRef.releasedText (ref : PipelineRef) : String :=
  "pipeline " ++ ref.name ++ " was released"

/-- Begins the run loop for an assignment. A pipeline must still be alive. -/
def Loop.enter (tuning : Tuning) (alive : UnitId → Bool) (now : Nat) :
    Option Assignment → Phase
  | some (.pipeline ref) =>
    if alive ref.id then
      .looping (.pipeline ref (.start tuning.controlInterval ref.period now)) .check
    else .finishing (some ref.releasedText)
  | some (.block b) => .looping (.block b) .check
  | none => .looping .idle .check

/-- Polls the run flag. -/
def Loop.poll (loop : Loop) (flag : Bool) : Phase :=
  if flag then .looping loop .call else .finishing none

/-- Goes on after a call of the unit. The reading is the one taken if the timer is looked
at. -/
def Loop.afterCall (loop : Loop) (outcome : Outcome) (now : Nat) : Phase :=
  match loop with
  | .idle => .looping .idle .check
  | .block b =>
    match outcome.failure with
    | none => .looping (.block b) .check
    | some reason => .finishing (some reason)
  | .pipeline ref gate =>
    match outcome.failure with
    | none =>
      let gate := gate.tick
      .looping (.pipeline ref gate)
        (if gate.looks && gate.isDue now then .timer now else .check)
    | some reason => .finishing (some reason)

/-- Among calls of equal length that succeed, the first of them from `now` on, each before
the last of the quiet ones leads straight back to the poll. -/
theorem Loop.afterCall_ticks {loop : Loop} {time now limit n : Nat} (htime : 0 < time)
    (hn : n + 1 < loop.quietCalls time now limit) :
    (loop.ticks n).afterCall .ok (now + (n + 1) * time) = .looping (loop.ticks (n + 1)) .check := by
  cases loop with
  | pipeline ref gate =>
    have hn : n + 1 < gate.quietCalls time now := by
      simp only [Loop.quietCalls] at hn; omega
    have hquiet : ((gate.ticks (n + 1)).looks &&
        (gate.ticks (n + 1)).isDue (now + (n + 1) * time)) = false :=
      TimerGate.quiet_of_lt_quietCalls (Nat.succ_pos n) htime hn
    simp only [ticks, afterCall, Outcome.failure, ← TimerGate.ticks_succ, hquiet,
      Bool.false_eq_true, if_false]
  | block b => rfl
  | idle => rfl

/-- Goes on after a timer call that followed a look at `reading`. -/
def Loop.afterTimer (loop : Loop) (outcome : Outcome) (reading : Nat) : Phase :=
  match outcome.failure with
  | none =>
    match loop with
    | .pipeline ref gate => .looping (.pipeline ref (gate.reset reading)) .check
    | loop => .looping loop .check
  | some reason => .finishing (some reason)

end CoreFleet
