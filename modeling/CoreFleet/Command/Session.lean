import CoreFleet.Command.Flags
import CoreFleet.Command.Journal
import CoreFleet.Config.File
import CoreFleet.Fleet.Basic
import CoreFleet.Launch.Guard

/-!
# A session of the process

A session brings up the environment, gives the heartbeat to its worker, starts the fleet
and answers signals until one ends it. `Session.begin` goes from the configuration to the
started fleet, and `Session.step` answers a signal or lets a thread of the fleet make a
step ; `run` plays a whole session and gives its exit code and its journal.
-/

namespace CoreFleet.Command

/-- The unit of the heartbeat, the only one of the process. -/
def heartbeatBlock : Block := ⟨0, "heartbeat"⟩

/-- A session whose fleet was started. -/
structure Session where
  fleet : Fleet
  /-- A signal has ended the session. -/
  ended : Bool := false
  journal : List Entry
  deriving DecidableEq, Repr

/-- What may happen in a session. -/
inductive Event
  | signal (s : Signal)
  /-- The thread of the worker at a position makes its next step, at a clock reading. -/
  | turn (i : Nat) (now : Nat)
  deriving DecidableEq, Repr

namespace Session

/-- The session before the start, with the environment that the options describe. -/
def ofOptions (tuning : Tuning) (o : Launch.Options) : Session where
  fleet := .ofLcores tuning o.workers
  journal := [.began, .leftover o.memoryChannels o.passthrough]

/-- Carries out an operation of the registry. -/
def operate (s : Session) (op : Operation) : Session := { s with fleet := s.fleet.operate op }

/-- Adds entries to the journal. -/
def enter (s : Session) (entries : List Entry) : Session :=
  { s with journal := s.journal ++ entries }

/-- Gives the heartbeat to its worker, if there is one. The process does this in a job of the
main core and waits for the reply. Its executor has no other jobs, so that the job is nothing
but the operation of the registry (`start_enableHeartbeat`). -/
def enableHeartbeat (s : Session) : Option Nat → Session
  | none => s
  | some worker =>
    match (s.fleet.registry.assignBlock worker heartbeatBlock).answer with
    | .ok () => s.operate (.assignBlock worker heartbeatBlock)
    | .error e => s.enter [.noHeartbeat worker e]

/-- Starts the fleet, or gives the journal if that is refused. This is another job of the main
core. -/
def start (s : Session) : Except (List Entry) Session :=
  match s.fleet.registry.start.answer with
  | .ok () => .ok ((s.operate .start).enter [.started s.fleet.registry.size])
  | .error e => .error (s.journal ++ [.unstarted e])

/-- Goes from a configuration to a started fleet, on a machine with the given processors,
or gives the journal if that fails. -/
def begin (available : List Nat) (c : Config) : Except (List Entry) Session :=
  match (Launch.bringUp available c.launch.toArgs false).2 with
  | .ok o => ((ofOptions c.tuning o).enableHeartbeat c.heartbeat.worker).start
  | .error e => .error [.began, .uninitialized e]

/-- The entries that answer a request for reports. -/
def dump (s : Session) : List Entry := .asked :: s.fleet.registry.snapshot.map .reported

/-- What an event does to a session. Nothing happens after its end. Every call of the
heartbeat succeeds. -/
def step (s : Session) (e : Event) : Session :=
  if s.ended then s
  else match e with
    | .signal .usr1 => s.enter s.dump
    | .signal sig => { s.enter [.ending sig] with ended := true }
    | .turn i now =>
      match s.fleet.turn? i .ok now with
      | some fleet => { s with fleet }
      | none => s

/-- The heartbeat runs on a worker. -/
def hasHeartbeat (s : Session) : Bool :=
  s.fleet.registry.slots.any (Slot.holdsBlock heartbeatBlock)

end Session

/-- How the process ended. -/
structure Ending where
  exitCode : Nat
  journal : List Entry := []
  /-- The heartbeat ran. -/
  heartbeat : Bool := false
  deriving DecidableEq, Repr

/-- The configuration that flags ask for, with the files under their paths. -/
def configure (file : String → Config.Contents) (f : Flags) : Except Config.LoadError Config :=
  match f.configPath with
  | none => .ok (f.override {})
  | some path => (Config.ofFile path (file path)).map f.override

/-- The exit code of a session that went well. -/
def success : Nat := 0

/-- The exit code of a session that did not get its fleet started. -/
def failure : Nat := 1

/-- The exit code of a refused command line. -/
def usageError : Nat := 2

/-- Plays a session : the command line, then the events in their order. -/
def run (available : List Nat) (file : String → Config.Contents) (args : List String)
    (events : List Event) : Ending :=
  match Invocation.ofArgs args with
  | .help => { exitCode := success }
  | .misuse => { exitCode := usageError }
  | .run flags =>
    match configure file flags with
    | .error e => { exitCode := failure, journal := [.began, .unconfigured e.message] }
    | .ok c =>
      match Session.begin available c with
      | .error journal => { exitCode := failure, journal }
      | .ok s =>
        let last := events.foldl Session.step s
        { exitCode := success, journal := last.journal, heartbeat := s.hasHeartbeat }

end CoreFleet.Command
