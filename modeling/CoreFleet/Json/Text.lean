import CoreFleet.Json.Fault

/-!
# Texts of documents

A text stands between double quotes. `pieces` takes it apart into characters and code
units : an escape of four hexadecimal digits stands for one unit of the UTF-16 form of the
text. `join` puts the units together, where two surrogates make one character and a
surrogate alone is malformed. A text that nobody looks at is only taken apart.
-/

namespace CoreFleet.Json.Text

/-- A part of a text. -/
inductive Piece
  | char (c : Char)
  /-- A code unit, below `2 ^ 16`. -/
  | unit (n : Nat)
  deriving DecidableEq, Repr

/-- What the letter of an escape stands for. -/
def escape? (c : Char) : Option Char :=
  match c with
  | '"' => some '"'
  | '\\' => some '\\'
  | '/' => some '/'
  | 'b' => some '\x08'
  | 'f' => some '\x0c'
  | 'n' => some '\n'
  | 'r' => some '\r'
  | 't' => some '\t'
  | _ => none

/-- The value of four hexadecimal digits. -/
def unit? (a b c d : Char) : Option Nat :=
  match Hexadecimal.digit? a, Hexadecimal.digit? b, Hexadecimal.digit? c, Hexadecimal.digit? d with
  | some a, some b, some c, some d => some (((a * 16 + b) * 16 + c) * 16 + d)
  | _, _, _, _ => none

/-- The characters below this one may not stand in a text as they are. -/
def firstPlain : Nat := 0x20

/-- The fault of an escape that does not have its four digits : the text ends in it if
fewer than four bytes are left. -/
def shortEscape (rest : List Char) : Fault :=
  if (String.ofList rest).utf8ByteSize < 4 then .incomplete else .malformed

/-- Takes a text apart, from after its opening quote up to its closing one : the pieces,
and what follows them, or the fault after them. -/
def pieces : List Char → List Piece × Except Fault (List Char)
  | [] => ([], .error .incomplete)
  | '"' :: rest => ([], .ok rest)
  | ['\\'] => ([], .error .incomplete)
  | '\\' :: 'u' :: a :: b :: c :: d :: rest =>
    match unit? a b c d with
    | some n => (.unit n :: (pieces rest).1, (pieces rest).2)
    | none => ([], .error .malformed)
  | '\\' :: 'u' :: rest => ([], .error (shortEscape rest))
  | '\\' :: c :: rest =>
    match escape? c with
    | some e => (.char e :: (pieces rest).1, (pieces rest).2)
    | none => ([], .error .malformed)
  | c :: rest =>
    if c.toNat < firstPlain then ([], .error .malformed)
    else (.char c :: (pieces rest).1, (pieces rest).2)

/-- The unit is the first one of a pair. -/
def isLeading (n : Nat) : Bool := 0xd800 ≤ n && n < 0xdc00

/-- The unit is the second one of a pair. -/
def isTrailing (n : Nat) : Bool := 0xdc00 ≤ n && n < 0xe000

/-- The character of a pair of units. -/
def pair (leading trailing : Nat) : Char :=
  Char.ofNat (0x10000 + (leading - 0xd800) * 0x400 + (trailing - 0xdc00))

/-- Puts pieces together. `ending` is what follows them. -/
def join (ending : Except Fault (List Char)) : List Piece → Except Fault (List Char × List Char)
  | [] => ending.map fun rest => ([], rest)
  | .char c :: ps => (join ending ps).map fun (cs, rest) => (c :: cs, rest)
  | .unit n :: ps =>
    if isTrailing n then .error .malformed
    else if isLeading n then
      match ps with
      | .unit m :: ps =>
        if isTrailing m then
          (join ending ps).map fun (cs, rest) => (pair n m :: cs, rest)
        else .error .malformed
      | .char _ :: _ => .error .malformed
      | [] =>
        match ending with
        | .error e => .error e
        | .ok _ => .error .malformed
    else (join ending ps).map fun (cs, rest) => (Char.ofNat n :: cs, rest)

/-- Reads a text from after its opening quote. -/
def read (cs : List Char) : Except Fault (List Char × List Char) :=
  join (pieces cs).2 (pieces cs).1

/-- Passes over a text from after its opening quote. -/
def pass (cs : List Char) : Except Fault (List Char) := (pieces cs).2

end CoreFleet.Json.Text
