import CoreFleet.Config.Document
import CoreFleet.Config.Folder

/-!
# Configuration files

A configuration file may be out of reach, hold bytes that are no UTF-8 text, or hold a
document that cannot be read. `Config.ofFile` tells these apart.
-/

namespace CoreFleet.Config

/-- Why a configuration file was refused. -/
inductive LoadError
  | unreadable (path : String) (why : Unreadable)
  | unparsable (path : String) (fault : Json.Fault)

/-- The text of a file. -/
def textOf (file : Contents) : Except Unreadable String :=
  file.bind fun bytes =>
    match String.fromUTF8? bytes with
    | some text => .ok text
    | none => .error .notText

/-- Reads the configuration file with this path. -/
def ofFile (path : String) (file : Contents) : Except LoadError Config :=
  match textOf file with
  | .error why => .error (.unreadable path why)
  | .ok text =>
    match ofJson text with
    | .ok c => .ok c
    | .error fault => .error (.unparsable path fault)

/-- The text before the first colon that a space follows. -/
def beforeColon : List Char → List Char
  | [] => []
  | ':' :: ' ' :: _ => []
  | c :: cs => c :: beforeColon cs

/-- What is said about a refused file. Of a document that cannot be read the fault itself,
which follows a colon, is left out. -/
def LoadError.message : LoadError → String
  | unreadable path why => "failed to read " ++ path ++ ": " ++ why.reason
  | unparsable path _ => String.ofList (beforeColon ("failed to parse " ++ path).toList)

end CoreFleet.Config
