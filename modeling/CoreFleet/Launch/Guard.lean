import CoreFleet.Launch.Options

/-!
# The environment guard

A process brings up one environment at a time. Bringing it up takes the mark, reads the
argument vector, and gives the mark back if the arguments are refused ; the guard that
results holds the mark until it is dropped. Several callers may do so at once, and
`Guard.Step` lists the atomic steps in which they interleave. `Guard.bringUp` is the run
of one caller with nobody in between.
-/

namespace CoreFleet.Launch

/-- A guard was asked for while the environment is up. -/
def alreadyInitialized : Error := .initialization .ealready "EAL already initialized"

/-- Where one caller stands in bringing up the environment. -/
inductive Caller
  /-- Has not begun. -/
  | outside
  /-- Holds the mark and has not read its arguments. -/
  | marked
  /-- Holds the mark, and its arguments were refused. -/
  | refused (why : Refusal)
  /-- Holds a live guard. -/
  | guarding (options : Options)
  /-- Came away with an error. -/
  | failed (e : Error)
  deriving DecidableEq, Repr

/-- The mark and the callers around it. -/
structure Environment where
  /-- Somebody holds the environment. -/
  initialized : Bool := false
  /-- The callers and their argument vectors. -/
  callers : List (List String × Caller) := []
  deriving DecidableEq, Repr

namespace Environment

/-- One atomic step of a caller with arguments `args` : swap the mark, read the
arguments, give the mark back, or drop the guard. -/
def callerStep (available : List Nat) (args : List String) (initialized : Bool) :
    Caller → Bool × Caller
  | .outside => if initialized then (true, .failed alreadyInitialized) else (true, .marked)
  | .marked => match Options.parse available args with
    | .ok options => (initialized, .guarding options)
    | .error why => (initialized, .refused why)
  | .refused why => (false, .failed why.toError)
  | .guarding _ => (false, .outside)
  | .failed e => (initialized, .failed e)

/-- The environment after one step of caller `i`. -/
def step (available : List Nat) (i : Nat) (env : Environment) : Environment :=
  match env.callers[i]? with
  | some (args, c) =>
    let (initialized, c) := callerStep available args env.initialized c
    { initialized, callers := env.callers.set i (args, c) }
  | none => env

end Environment

/-- Brings up the environment with nobody in between : whether it is up afterwards, and
the options it runs with. -/
def bringUp (available : List Nat) (args : List String) (initialized : Bool) :
    Bool × Except Error Options :=
  if initialized then (true, .error alreadyInitialized)
  else match Options.parse available args with
    | .ok options => (true, .ok options)
    | .error why => (false, .error why.toError)

/-! ## Guards held under names -/

/-- The guards that are held, by name, and the mark. -/
structure Holder where
  initialized : Bool := false
  guards : List (String × Options) := []
  deriving DecidableEq, Repr

namespace Holder

/-- Drops the guard held under a name, and tells whether there was one. -/
def drop (h : Holder) (name : String) : Bool × Holder :=
  if h.guards.any (·.1 = name) then
    (true, ⟨false, h.guards.filter (·.1 ≠ name)⟩)
  else (false, h)

/-- Brings up the environment and keeps the guard under a name. A guard held there before
is dropped once the new one is made. -/
def init (h : Holder) (available : List Nat) (name : String) (args : List String) :
    Except Error Options × Holder :=
  match bringUp available args h.initialized with
  | (initialized, .ok options) =>
    (.ok options, ⟨initialized, (name, options) :: h.guards.filter (·.1 ≠ name)⟩)
  | (initialized, .error e) => (.error e, { h with initialized })

end Holder

end CoreFleet.Launch
