import CoreFleet.Config.Basic
import CoreFleet.Text.Blank

/-!
# The command line of the process

Four flags take a value : the configuration file, the core mask, the core list and the
memory channels. A value follows as the next argument, or is attached : after an equals
sign, or, for the one-letter form, directly. Each flag is given at most once, and the core
set in one way only. `Invocation.ofArgs` reads an argument vector from left to right, so
that a request for help counts if nothing before it was refused.
-/

namespace CoreFleet.Command

/-- What the flags say. -/
structure Flags where
  configPath : Option String := none
  coreMask : Option String := none
  coreList : Option String := none
  memoryChannels : Option Nat := none
  deriving DecidableEq, Repr

/-- A flag that takes a value. -/
inductive Flag
  | config
  | coreMask
  | coreList
  | memoryChannels
  deriving DecidableEq, Repr

namespace Flag

/-- All flags. -/
def all : List Flag := [config, coreMask, coreList, memoryChannels]

/-- The letter of a flag. -/
def letter : Flag → Char
  | config => 'c'
  | coreMask => 'm'
  | coreList => 'l'
  | memoryChannels => 'n'

/-- The long name of a flag. -/
def longName : Flag → String
  | config => "config"
  | coreMask => "core-mask"
  | coreList => "core-list"
  | memoryChannels => "memory-channels"

end Flag

/-- What an argument stands for. -/
inductive Word
  /-- The end of the flags. -/
  | terminator
  /-- A request for help. -/
  | help
  /-- A flag, with the value that is attached to it. -/
  | flag (f : Flag) (attached : Option (List Char))
  | unknown
  deriving DecidableEq, Repr

namespace Word

/-- The value attached to a letter : what follows it, without an equals sign in front. -/
def attachedToLetter : List Char → Option (List Char)
  | [] => none
  | '=' :: cs => some cs
  | cs => some cs

/-- Reads the letters after a dash. -/
def ofLetters (c : Char) (cs : List Char) : Word :=
  if c = 'h' then help
  else match Flag.all.find? fun f => f.letter = c with
    | some f => flag f (attachedToLetter cs)
    | none => unknown

/-- A long name and the value after its equals sign. -/
def splitLong (cs : List Char) : List Char × Option (List Char) :=
  match Text.splitOnce? '=' cs with
  | some (name, value) => (name, some value)
  | none => (cs, none)

/-- Reads the text after two dashes. -/
def ofLong (cs : List Char) : Word :=
  let (name, value) := splitLong cs
  if String.ofList name = "help" then (if value.isNone then help else unknown)
  else match Flag.all.find? fun f => f.longName = String.ofList name with
    | some f => flag f value
    | none => unknown

/-- Reads an argument. -/
def ofArg (arg : String) : Word :=
  match arg.toList with
  | ['-', '-'] => terminator
  | '-' :: '-' :: cs => ofLong cs
  | '-' :: c :: cs => ofLetters c cs
  | _ => unknown

end Word

/-- An argument can be the value of the flag before it : it does not begin like a flag. -/
def standsAlone (arg : String) : Bool :=
  match arg.toList with
  | '-' :: _ :: _ => false
  | _ => true

namespace Flags

/-- Sets a value that was not set before. -/
def setOnce {α : Type} (old : Option α) (new : α) : Option (Option α) :=
  match old with
  | none => some (some new)
  | some _ => none

/-- The number of memory channels that a value gives. -/
def channels? (cs : List Char) : Option Nat :=
  match Numeral.integer? cs with
  | some z => if 0 ≤ z ∧ z < (Numeral.wordBound : Nat) then some z.toNat else none
  | none => none

/-- Enters the value of a flag. The path of a file is not empty. -/
def enter (f : Flags) (flag : Flag) (value : List Char) : Option Flags :=
  match flag with
  | .config =>
    if value = [] then none
    else (setOnce f.configPath (String.ofList value)).map fun v => { f with configPath := v }
  | .coreMask => (setOnce f.coreMask (String.ofList value)).map fun v => { f with coreMask := v }
  | .coreList => (setOnce f.coreList (String.ofList value)).map fun v => { f with coreList := v }
  | .memoryChannels =>
    match channels? value with
    | some n => (setOnce f.memoryChannels n).map fun v => { f with memoryChannels := v }
    | none => none

/-- The core set is given in at most one way. -/
def agree (f : Flags) : Bool := f.coreMask.isNone || f.coreList.isNone

end Flags

/-- What a command line asks for. -/
inductive Invocation
  | run (flags : Flags)
  | help
  /-- The command line is refused. -/
  | misuse
  deriving DecidableEq, Repr

namespace Invocation

/-- The end of the command line. -/
def finish (f : Flags) : Invocation := if f.agree then run f else misuse

/-- Reads arguments after those that gave `f`. -/
def scan (f : Flags) : List String → Invocation
  | [] => finish f
  | arg :: rest =>
    match Word.ofArg arg with
    | .terminator => if rest.isEmpty then finish f else misuse
    | .help => help
    | .unknown => misuse
    | .flag flag (some value) =>
      match f.enter flag value with
      | some f => scan f rest
      | none => misuse
    | .flag flag none =>
      match rest with
      | [] => misuse
      | value :: rest =>
        if standsAlone value then
          match f.enter flag value.toList with
          | some f => scan f rest
          | none => misuse
        else misuse

/-- Reads a command line, without the name of the program. -/
def ofArgs (args : List String) : Invocation := scan {} args

end Invocation

/-- The configuration with what the flags say in place of what it said. -/
def Flags.override (f : Flags) (c : Config) : Config :=
  let c := match f.coreMask with
    | some text => c.withCores (.mask text)
    | none => c
  let c := match f.coreList with
    | some text => c.withCores (.list text)
    | none => c
  match f.memoryChannels with
  | some n => c.withMemoryChannels n
  | none => c

end CoreFleet.Command
