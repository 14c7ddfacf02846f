import CoreFleet.Text.Blank

/-!
# Files and folders

A path is a list of parts between slashes, which are followed one after another from the
root or from the working folder (`Disk.find`). What cannot be followed or read has a
reason (`Unreadable`).
-/

namespace CoreFleet.Config

/-- A file, or a folder with its named entries. -/
inductive Node
  | file (bytes : ByteArray)
  | folder (entries : List (String × Node))

/-- Why the text of a file cannot be had. -/
inductive Unreadable
  | missing
  /-- The path leads to a folder. -/
  | folder
  /-- The path goes on after a file. -/
  | notFolder
  /-- A part of the path, or the whole of it, is too long. -/
  | longName
  /-- The path has a null character. -/
  | nullInPath
  /-- The bytes are no UTF-8 text. -/
  | notText
  deriving DecidableEq, Repr

/-- The wording of the reason. -/
def Unreadable.reason : Unreadable → String
  | missing => "No such file or directory (os error 2)"
  | folder => "Is a directory (os error 21)"
  | notFolder => "Not a directory (os error 20)"
  | longName => "File name too long (os error 36)"
  | nullInPath => "file name contained an unexpected NUL byte"
  | notText => "stream did not contain valid UTF-8"

/-- The bytes of a file, or why it has none to read. -/
abbrev Contents := Except Unreadable ByteArray

/-- The greatest size of a part of a path, in bytes. -/
def partLimit : Nat := 255

/-- The size from which on a path is too long, in bytes. -/
def pathLimit : Nat := 4096

namespace Node

/-- What a folder has under this name. -/
def child? (name : String) (entries : List (String × Node)) : Option Node :=
  (entries.find? fun e => e.1 = name).map Prod.snd

/-- Puts a node under a path of names. A folder that is already there stays. -/
def put (node : Node) : List String → Node → Node
  | [], old => match old, node with
    | folder entries, folder _ => folder entries
    | _, _ => node
  | name :: rest, folder entries =>
    let old := (child? name entries).getD (folder [])
    folder ((entries.filter fun e => e.1 ≠ name) ++ [(name, put node rest old)])
  | _ :: _, file bytes => file bytes

/-- Follows one part of a path. The way so far is given as the nodes passed, the latest
first. An empty part and a single dot stay in the folder, and two dots go back. -/
def follow (way : List Node) (part : String) : Except Unreadable (List Node) :=
  match way with
  | folder entries :: above =>
    if part = "" ∨ part = "." then .ok way
    else if part = ".." then .ok (if above.isEmpty then way else above)
    else if partLimit < part.utf8ByteSize then .error .longName
    else match child? part entries with
      | some node => .ok (node :: way)
      | none => .error .missing
  | _ => .error .notFolder

/-- What is read from the end of a way. -/
def contents : List Node → Contents
  | file bytes :: _ => .ok bytes
  | _ => .error .folder

end Node

/-- The files that a process sees. -/
structure Disk where
  root : Node
  /-- The parts of the path of the working folder. -/
  working : List String := []

namespace Disk

/-- The parts of a path, from the root on. -/
def parts (d : Disk) (path : String) : List String :=
  let named := (Text.split '/' path.toList).map String.ofList
  if path.startsWith "/" then named else d.working ++ named

/-- Puts a node under a path of names from the root on. -/
def put (d : Disk) (path : List String) (node : Node) : Disk :=
  { d with root := node.put path d.root }

/-- Reads the file under a path. -/
def find (d : Disk) (path : String) : Contents :=
  if '\x00' ∈ path.toList then .error .nullInPath
  else if path.isEmpty then .error .missing
  else if pathLimit ≤ path.utf8ByteSize then .error .longName
  else ((d.parts path).foldlM Node.follow [d.root]).bind Node.contents

end Disk

end CoreFleet.Config
