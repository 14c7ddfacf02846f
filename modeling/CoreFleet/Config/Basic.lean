import CoreFleet.Launch.Builder
import CoreFleet.Worker.Tuning

/-!
# Configuration of a fleet

A configuration says how the environment is launched, how the workers run their units,
whether a heartbeat runs on one of them, and how long a shutdown waits. A core mask and a
core list replace each other when they are set.
-/

namespace CoreFleet

/-- How the environment is launched. -/
structure Config.Launch where
  programName : String := "dummy"
  memoryChannels : Option Nat := some 4
  coreMask : Option String := some "3"
  coreList : Option String := none
  mainLcore : Option Nat := none
  /-- Further arguments, as they are. -/
  args : List String := []
  deriving DecidableEq, Repr

/-- The heartbeat of the process. -/
structure Config.Heartbeat where
  /-- The worker it runs on, if there is a heartbeat at all. -/
  worker : Option Nat := none
  periodMs : Nat := 1000
  deriving DecidableEq, Repr

/-- A configuration. -/
structure Config where
  launch : Config.Launch := {}
  tuning : Tuning := {}
  heartbeat : Config.Heartbeat := {}
  /-- How long a shutdown waits for the workers to stop, in milliseconds. -/
  stopTimeoutMs : Nat := 1000
  deriving DecidableEq, Repr

namespace Config

/-- The builder calls of the launch options, in their order : the program name, the memory
channels, the core options, the main core, and the further arguments. -/
def Launch.calls (l : Launch) : List CoreFleet.Launch.Builder.Call :=
  .programName l.programName ::
    (l.memoryChannels.map .memoryChannels).toList ++
    (l.coreMask.map .coreMask).toList ++
    (l.coreList.map .coreList).toList ++
    (l.mainLcore.map .mainLcore).toList ++
    l.args.map .arg

/-- The argument vector of the launch options. -/
def Launch.toArgs (l : Launch) : List String := (CoreFleet.Launch.Builder.ofCalls l.calls).toArgs

/-- The period of the heartbeat in milliseconds, at least one. -/
def Heartbeat.effectiveMs (h : Heartbeat) : Nat := max h.periodMs 1

/-- One way to give the core set. -/
inductive CoreChoice
  | mask (text : String)
  | list (text : String)
  deriving DecidableEq, Repr

/-- Sets the core set, in place of the one there was. -/
def withCores (c : Config) (choice : CoreChoice) : Config :=
  match choice with
  | .mask text => { c with launch := { c.launch with coreMask := some text, coreList := none } }
  | .list text => { c with launch := { c.launch with coreMask := none, coreList := some text } }

/-- Sets the memory channels. -/
def withMemoryChannels (c : Config) (n : Nat) : Config :=
  { c with launch := { c.launch with memoryChannels := some n } }

end Config

end CoreFleet
