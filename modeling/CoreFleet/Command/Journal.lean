import CoreFleet.Error
import CoreFleet.Launch.Options
import CoreFleet.Registry.Report

/-!
# The journal of the process

The process keeps a journal of lines, each with a level, a message and named fields.
`Entry` names what is worth a line, and `Entry.line` writes it.
-/

namespace CoreFleet.Command

/-- How serious a line is. -/
inductive Level
  | info
  | warn
  | error
  deriving DecidableEq, Repr

/-- The word for a level. -/
def Level.text : Level → String
  | info => "INFO"
  | warn => "WARN"
  | error => "ERROR"

/-- A line of the journal. -/
structure Line where
  level : Level
  message : String
  fields : List (String × String) := []
  deriving DecidableEq, Repr

namespace Line

/-- A character of a message as it is written : those that control a terminal are written
by their code points. -/
def escape (c : Char) : List Char :=
  let n := c.toNat
  if n = 0x7 ∨ n = 0x8 ∨ n = 0xc ∨ n = 0x1b ∨ n = 0x7f then
    ['\\', 'x'] ++ (if n < 16 then ['0'] else []) ++ Hexadecimal.render n
  else if 0x80 ≤ n ∧ n ≤ 0x9f then Text.codePoint c
  else [c]

/-- A message as it is written. -/
def escaped (message : String) : String := String.ofList (message.toList.flatMap escape)

/-- A field as it is written. -/
def fieldText (f : String × String) : String := " " ++ f.1 ++ "=" ++ f.2

/-- The line as text. -/
def text (l : Line) : String :=
  l.level.text ++ " " ++ escaped l.message ++ String.join (l.fields.map fieldText)

end Line

/-- The signals that the process answers. -/
inductive Signal
  /-- Asks for the reports on the workers. -/
  | usr1
  | int
  | term
  deriving DecidableEq, Repr

/-- The name of a signal. -/
def Signal.name : Signal → String
  | usr1 => "SIGUSR1"
  | int => "SIGINT"
  | term => "SIGTERM"

/-- What is worth a line of the journal. -/
inductive Entry
  /-- The process began. -/
  | began
  /-- The configuration file was refused, with this message. -/
  | unconfigured (message : String)
  /-- The environment could not be brought up. -/
  | uninitialized (e : Error)
  /-- What the environment leaves to the packet engine. -/
  | leftover (memoryChannels : Option Nat) (passthrough : List String)
  /-- The heartbeat could not be given to the worker. -/
  | noHeartbeat (worker : Nat) (e : Error)
  /-- The workers could not be started. -/
  | unstarted (e : Error)
  /-- So many workers were started. -/
  | started (workers : Nat)
  /-- The reports on the workers were asked for. -/
  | asked
  | reported (w : Report)
  /-- The signal ends the process. -/
  | ending (s : Signal)
  deriving DecidableEq, Repr

namespace Entry

/-- A value that may be missing. -/
def optionText : Option Nat → String
  | some n => "Some(" ++ Numeral.text n ++ ")"
  | none => "None"

/-- Quoted texts in brackets. -/
def listText (texts : List String) : String :=
  "[" ++ String.intercalate ", " (texts.map Text.quote) ++ "]"

/-- The line for an entry. -/
def line : Entry → Line
  | began => { level := .info, message := "PID" }
  | unconfigured message => { level := .error, message }
  | uninitialized e =>
    { level := .error
      message := "Runtime initialization failed: " ++ e.message
      fields := [("errno", Numeral.signedText e.raw)] }
  | leftover channels passthrough =>
    { level := .info
      message := "EAL options left to the packet engine"
      fields := [("memory_channels", optionText channels), ("passthrough", listText passthrough)] }
  | noHeartbeat worker e =>
    { level := .warn
      message := "Heartbeat not enabled: " ++ e.message
      fields := [("worker", Numeral.text worker)] }
  | unstarted e => { level := .error, message := "Failed to start workers: " ++ e.message }
  | started workers =>
    { level := .info
      message := "Workers started"
      fields := [("workers", Numeral.text workers)] }
  | asked => { level := .info, message := "Received " ++ Signal.usr1.name }
  | reported w => { level := .info, message := w.text }
  | ending s => { level := .info, message := "Shutting down", fields := [("signal", s.name)] }

end Entry

end CoreFleet.Command
