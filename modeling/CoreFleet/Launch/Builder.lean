import CoreFleet.Launch.Options

/-!
# Building an argument vector

A builder collects arguments in the order of the calls. The program name may be given at
any point, the last one counts.
-/

namespace CoreFleet.Launch

/-- The program name that is used when none is known. -/
def defaultProgramName : String := "swx-app"

/-- An argument vector under construction. -/
structure Builder where
  programName : String := defaultProgramName
  /-- The arguments after the program name. -/
  args : List String := []
  deriving DecidableEq, Repr

/-- One call on a builder. -/
inductive Builder.Call
  | programName (name : String)
  | coreMask (text : String)
  | coreList (text : String)
  | memoryChannels (n : Nat)
  | mainLcore (id : Nat)
  | arg (raw : String)
  deriving DecidableEq, Repr

namespace Builder

/-- Adds a setting and its value. -/
def setting (b : Builder) (s : Setting) (value : String) : Builder :=
  { b with args := b.args ++ [s.flag, value] }

/-- Carries out a call. -/
def apply (b : Builder) : Call → Builder
  | .programName name => { b with programName := name }
  | .coreMask text => b.setting .coreMask text
  | .coreList text => b.setting .coreList text
  | .memoryChannels n => b.setting .memoryChannels (Numeral.text n)
  | .mainLcore id => b.setting .mainLcore (Numeral.text id)
  | .arg raw => { b with args := b.args ++ [raw] }

/-- The builder after a sequence of calls. -/
def ofCalls (calls : List Call) : Builder := calls.foldl apply {}

/-- The argument vector. -/
def toArgs (b : Builder) : List String := b.programName :: b.args

end Builder

end CoreFleet.Launch
