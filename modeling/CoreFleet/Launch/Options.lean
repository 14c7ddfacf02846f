import CoreFleet.CoreSet.Text
import CoreFleet.Error
import CoreFleet.Text.Quoted

/-!
# Launch options

The environment of the fleet is described by an argument vector : a program name, then
options. `Options.parse` reads `-c MASK`, `-l LIST`, `-n COUNT` and `--main-lcore ID`,
keeps every other long option for the packet engine, and stops after `--`. At most one
core option is accepted, of the other options the last one counts. With no core option
the fleet takes the processors that are available, and with no main core it takes the
lowest one.
-/

namespace CoreFleet.Launch

/-- What the launch options describe. -/
structure Options where
  programName : String
  /-- The core set, in increasing order. -/
  cores : List Nat
  /-- The core that does the coordination. -/
  mainLcore : Nat
  memoryChannels : Option Nat
  /-- The long options kept for the packet engine, in order. -/
  passthrough : List String
  /-- How many arguments were read, the program name and `--` included. -/
  parsedArgs : Nat
  deriving DecidableEq, Repr

/-- Why an argument vector was refused. -/
inductive Refusal
  | missingProgramName
  | missingValue (option : String)
  | repeatedCoreSet
  | invalidCoreSet (raw : String)
  | invalidMemoryChannels (raw : String)
  | invalidMainLcore (raw : String)
  | unknownOption (raw : String)
  | emptyCoreSet
  | mainOutsideCores (id : Nat)
  deriving DecidableEq, Repr

namespace Refusal

/-- The wording of a refusal. -/
def reason : Refusal → String
  | missingProgramName => "missing program name"
  | missingValue option => "option " ++ option ++ " requires a value"
  | repeatedCoreSet => "core set given more than once"
  | invalidCoreSet raw => "invalid core set " ++ Text.quote raw
  | invalidMemoryChannels raw => "invalid memory channels " ++ Text.quote raw
  | invalidMainLcore raw => "invalid main lcore " ++ Text.quote raw
  | unknownOption raw => "unknown option " ++ Text.quote raw
  | emptyCoreSet => "empty core set"
  | mainOutsideCores id => "main lcore " ++ Numeral.text id ++ " not in core set"

/-- A refused argument vector is an initialization failure with an invalid argument. -/
def toError (r : Refusal) : Error := .initialization .einval r.reason

end Refusal

/-! ## Options that take a value -/

/-- The options that take a value. -/
inductive Setting
  | coreMask
  | coreList
  | memoryChannels
  | mainLcore
  deriving DecidableEq, Repr

/-- How a setting is written. -/
def Setting.flag : Setting → String
  | coreMask => "-c"
  | coreList => "-l"
  | memoryChannels => "-n"
  | mainLcore => "--main-lcore"

/-- What an argument in option position stands for. -/
inductive Word
  /-- The end of the options. -/
  | terminator
  /-- An option that takes the next argument as its value. -/
  | setting (s : Setting)
  /-- A long option for the packet engine. -/
  | long
  /-- No option at all. -/
  | unknown
  deriving DecidableEq, Repr

/-- Reads an argument in option position. -/
def Word.ofString (arg : String) : Word :=
  if arg = "--" then terminator
  else if arg = Setting.coreMask.flag then setting .coreMask
  else if arg = Setting.coreList.flag then setting .coreList
  else if arg = Setting.memoryChannels.flag then setting .memoryChannels
  else if arg = Setting.mainLcore.flag then setting .mainLcore
  else if (Text.strip? ['-', '-'] arg.toList).isSome then long
  else unknown

/-- What has been read of an argument vector. -/
structure Reading where
  cores : Option (List Nat) := none
  mainLcore : Option Nat := none
  memoryChannels : Option Nat := none
  passthrough : List String := []
  parsedArgs : Nat := 1
  deriving DecidableEq, Repr

namespace Reading

/-- Enters the core set, unless there is one already. -/
def enterCores (r : Reading) (raw : String) (cores : Option (List Nat)) :
    Except Refusal Reading :=
  if r.cores.isSome then .error .repeatedCoreSet
  else match cores with
    | some ids => .ok { r with cores := some ids }
    | none => .error (.invalidCoreSet raw)

/-- Enters the value of a setting. -/
def enter (r : Reading) (s : Setting) (raw : String) : Except Refusal Reading :=
  match s with
  | .coreMask => r.enterCores raw (CoreSet.ofMask? raw.toList)
  | .coreList => r.enterCores raw (CoreSet.ofList? raw.toList)
  | .memoryChannels =>
    match Numeral.word? raw.toList with
    | some n => .ok { r with memoryChannels := some n }
    | none => .error (.invalidMemoryChannels raw)
  | .mainLcore =>
    match Numeral.word? raw.toList with
    | some id => .ok { r with mainLcore := some id }
    | none => .error (.invalidMainLcore raw)

/-- Counts `n` more arguments as read. -/
def advance (r : Reading) (n : Nat) : Reading := { r with parsedArgs := r.parsedArgs + n }

/-- Reads the arguments after the program name. -/
def scan (r : Reading) : List String → Except Refusal Reading
  | [] => .ok r
  | arg :: rest =>
    match Word.ofString arg with
    | .terminator => .ok (r.advance 1)
    | .setting s =>
      match rest with
      | [] => .error (.missingValue s.flag)
      | raw :: rest =>
        match r.enter s raw with
        | .ok r => scan (r.advance 2) rest
        | .error e => .error e
    | .long => scan ({ r with passthrough := r.passthrough ++ [arg] }.advance 1) rest
    | .unknown => .error (.unknownOption arg)

/-- Completes the reading : the core set must hold a core, and the main core. -/
def complete (r : Reading) (available : List Nat) (name : String) : Except Refusal Options :=
  let cores := r.cores.getD available
  match cores with
  | [] => .error .emptyCoreSet
  | first :: _ =>
    let main := r.mainLcore.getD first
    if main ∈ cores then
      .ok ⟨name, cores, main, r.memoryChannels, r.passthrough, r.parsedArgs⟩
    else .error (.mainOutsideCores main)

end Reading

namespace Options

/-- Reads an argument vector, on a machine with the given processors. -/
def parse (available : List Nat) : List String → Except Refusal Options
  | [] => .error .missingProgramName
  | name :: rest =>
    match ({} : Reading).scan rest with
    | .ok r => r.complete available name
    | .error e => .error e

/-- The cores of the fleet in order, each as main core or worker. -/
def lcores (o : Options) : List Lcore :=
  o.cores.map fun id => if id = o.mainLcore then .main id else .worker id

/-- The workers of the fleet in order. -/
def workers (o : Options) : List Lcore := o.lcores.filter fun l => !l.isMain

end Options

end CoreFleet.Launch
