import CoreFleet.Command.Session

/-!
# The process

`main` reads the configuration file and the processors that it may use, plays a session,
and prints the journal. The signals are read as lines of the standard input, by their
names.
-/

namespace CoreFleet.Command

/-- The text printed for a request for help. -/
def usage : String := "Options: [-c FILE] [-m MASK | -l LIST] [-n COUNT]"

/-- What can be read under a path. A path that goes on after a file cannot be opened, while
a folder can be opened but not read : then the fault names no path. -/
def contentsOf (path : String) : IO Config.Contents := do
  if '\x00' ∈ path.toList then return .error .nullInPath
  try
    return .ok (← IO.FS.readBinFile path)
  catch
    | .noFileOrDirectory .. => return .error .missing
    | .inappropriateType none .. => return .error .folder
    | .inappropriateType .. => return .error .notFolder
    | .invalidArgument .. => return .error .longName
    | _ => return .error .missing

/-- The list of processors in a status report of the system. -/
def allowedIn (status : String) : Option (List Nat) :=
  (Text.split '\n' status.toList).findSome? fun line =>
    (Text.strip? "Cpus_allowed_list:".toList line).bind CoreSet.ofList?

/-- The processors that the system allows to this process. -/
def allowedProcessors : IO (List Nat) := do
  try
    let status ← IO.FS.readFile "/proc/self/status"
    return CoreSet.available ((allowedIn status).getD []).contains
  catch _ => return []

/-- The signal with a name. -/
def signalOf? (name : String) : Option Signal :=
  [Signal.usr1, .int, .term].find? fun s => s.name = name

/-- The events that the lines of the standard input name. -/
partial def readEvents (input : IO.FS.Stream) (events : List Event) : IO (List Event) := do
  let line ← input.getLine
  if line.isEmpty then return events.reverse
  match signalOf? (String.ofList (Text.trim line.toList)) with
  | some s => readEvents input (.signal s :: events)
  | none => readEvents input events

/-- Plays the session that a command line asks for, and gives its exit code. -/
def perform (args : List String) (path : Option String) : IO UInt32 := do
  let file ← contentsOf (path.getD "")
  let available ← allowedProcessors
  let events ← readEvents (← IO.getStdin) []
  let ending := run available (fun _ => file) args events
  for entry in ending.journal do
    IO.println entry.line.text
  return ending.exitCode.toUInt32

end CoreFleet.Command

open CoreFleet.Command in
/-- Answers a command line. -/
def main (args : List String) : IO UInt32 := do
  match Invocation.ofArgs args with
  | .run flags => perform args flags.configPath
  | .help => do
    IO.println usage
    return success.toUInt32
  | .misuse => return usageError.toUInt32
