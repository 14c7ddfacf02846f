import CoreFleet.Json.Number
import CoreFleet.Json.Text

/-!
# Readers of values

A `Reader` takes a value off the front of a text, with the white space before it, and
gives the rest. `scalar` sees what kind of value is there, and the readers for one type
accept what fits. `pass` goes over a value that nobody asked for : it must be well formed,
but its numbers may be of any size, its texts may hold surrogates alone, and it may be
nested to any depth.
-/

namespace CoreFleet.Json

/-- A reader of values. -/
abbrev Reader (α : Type) := List Char → Except Fault (α × List Char)

/-! ## Tokens -/

/-- White space of a document. -/
def isSpace (c : Char) : Bool := c = ' ' || c = '\n' || c = '\t' || c = '\r'

/-- A text without the white space in front of it. -/
def skipSpace (cs : List Char) : List Char := cs.dropWhile isSpace

/-- Takes the characters of a word off a text. -/
def word : List Char → List Char → Except Fault (List Char)
  | [], cs => .ok cs
  | _ :: _, [] => .error .incomplete
  | w :: ws, c :: cs => if w = c then word ws cs else .error .malformed

/-- Takes one mark off a text, with the white space before it. -/
def mark (m : Char) (cs : List Char) : Except Fault (List Char) := word [m] (skipSpace cs)

/-- A character with which a number begins. -/
def startsNumber (c : Char) : Bool := c = '-' || (Numeral.digit? c).isSome

/-! ## Scalars -/

/-- Reads a scalar. Of a sequence or a mapping only the opening bracket is taken. -/
def scalar : Reader Found := fun cs =>
  match skipSpace cs with
  | [] => .error .incomplete
  | c :: rest =>
    if c = 'n' then (word ['u', 'l', 'l'] rest).map fun rest => (.null, rest)
    else if c = 't' then (word ['r', 'u', 'e'] rest).map fun rest => (.boolean true, rest)
    else if c = 'f' then (word ['a', 'l', 's', 'e'] rest).map fun rest => (.boolean false, rest)
    else if c = '"' then (Text.read rest).map fun (s, rest) => (.text (String.ofList s), rest)
    else if c = '[' then .ok (.sequence, rest)
    else if c = '{' then .ok (.mapping, rest)
    else if startsNumber c then
      match Number.read (c :: rest) with
      | .ok (n, rest) => n.found.map fun found => (found, rest)
      | .error e => .error e
    else .error .malformed

/-- Reads a value of one type, which `accept` takes out of a scalar. -/
def ofScalar {α : Type} (accept : Found → Except Misfit α) : Reader α := fun cs =>
  match scalar cs with
  | .ok (found, rest) =>
    match accept found with
    | .ok a => .ok (a, rest)
    | .error m => .error (.misfit m)
  | .error e => .error e

/-- Reads a text. -/
def text : Reader String := ofScalar fun found =>
  match found with
  | .text s => .ok s
  | found => .error (.wrongType found "a string")

/-- Reads a natural number below a bound. -/
def natural (bound : Nat) (expected : String) : Reader Nat := ofScalar fun found =>
  match found with
  | .integer z => if 0 ≤ z ∧ z < bound then .ok z.toNat else .error (.outOfRange z expected)
  | found => .error (.wrongType found expected)

/-- Reads a 32-bit word. -/
def word32 : Reader Nat := natural Numeral.wordBound "u32"

/-- Reads a 64-bit word. -/
def word64 : Reader Nat := natural Numeral.longBound "u64"

/-- Reads a value or null. -/
def optional {α : Type} (read : Reader α) : Reader (Option α) := fun cs =>
  match skipSpace cs with
  | 'n' :: rest => (word ['u', 'l', 'l'] rest).map fun rest => (none, rest)
  | cs => (read cs).map fun (a, rest) => (some a, rest)

/-! ## Values nobody asked for -/

/-- The bracket around the entries of a value. -/
inductive Bracket
  | square
  | curly
  deriving DecidableEq, Repr

/-- The closing mark of a bracket. -/
def Bracket.closing : Bracket → Char
  | square => ']'
  | curly => '}'

/-- Takes the quote that begins a key off a text. -/
def openKey (cs : List Char) : Except Fault (List Char) := mark '"' cs

/-- Passes over the key of an entry and its colon. A sequence has no keys. -/
def passKey (b : Bracket) (cs : List Char) : Except Fault (List Char) :=
  match b with
  | .square => .ok cs
  | .curly => do
    let cs ← openKey cs
    let cs ← Text.pass cs
    mark ':' cs

/-- Passes over a number. One that is cut short is malformed, also at the end. -/
def passNumber (cs : List Char) : Except Fault (List Char) :=
  match Number.read cs with
  | .ok (_, rest) => .ok rest
  | .error _ => .error .malformed

/-- Passes over a scalar. -/
def passScalar (cs : List Char) : Except Fault (List Char) :=
  match cs with
  | [] => .error .incomplete
  | c :: rest =>
    if c = 'n' then word ['u', 'l', 'l'] rest
    else if c = 't' then word ['r', 'u', 'e'] rest
    else if c = 'f' then word ['a', 'l', 's', 'e'] rest
    else if c = '"' then Text.pass rest
    else if startsNumber c then passNumber (c :: rest)
    else .error .malformed

mutual

/-- Passes over a value, nested less deep than `fuel`. -/
def passValue (fuel : Nat) (cs : List Char) : Except Fault (List Char) :=
  match fuel with
  | 0 => .error .malformed
  | fuel + 1 =>
    match skipSpace cs with
    | '[' :: rest =>
      match skipSpace rest with
      | ']' :: rest => .ok rest
      | rest => passEntry fuel .square rest
    | '{' :: rest =>
      match skipSpace rest with
      | '}' :: rest => .ok rest
      | rest => passEntry fuel .curly rest
    | cs => passScalar cs

/-- Passes over an entry and all that follow it in the same brackets. -/
def passEntry (fuel : Nat) (b : Bracket) (cs : List Char) : Except Fault (List Char) :=
  match fuel with
  | 0 => .error .malformed
  | fuel + 1 =>
    match passKey b cs with
    | .error e => .error e
    | .ok cs =>
      match passValue fuel cs with
      | .error e => .error e
      | .ok cs =>
        match skipSpace cs with
        | ',' :: rest => passEntry fuel b rest
        | c :: rest => if c = b.closing then .ok rest else .error .malformed
        | [] => .error .incomplete

end

/-- Passes over a value. Every entry and every bracket takes a character, so that the
length of the text bounds the depth. -/
def pass (cs : List Char) : Except Fault (List Char) := passValue (2 * cs.length + 2) cs

/-! ## Sequences -/

/-- Reads the items of a sequence that are left, after one was read. -/
def moreItems {α : Type} (read : Reader α) : Nat → Reader (List α)
  | 0, _ => .error .malformed
  | fuel + 1, cs =>
    match skipSpace cs with
    | ']' :: rest => .ok ([], rest)
    | ',' :: rest => do
      let (a, rest) ← read rest
      let (as, rest) ← moreItems read fuel rest
      return (a :: as, rest)
    | [] => .error .incomplete
    | _ => .error .malformed

/-- Reads a sequence of values of one type. -/
def sequence {α : Type} (read : Reader α) : Reader (List α) := fun cs =>
  match skipSpace cs with
  | '[' :: rest =>
    match skipSpace rest with
    | ']' :: rest => .ok ([], rest)
    | rest => do
      let (a, rest) ← read rest
      let (as, rest) ← moreItems read (rest.length + 1) rest
      return (a :: as, rest)
  | cs => ofScalar (fun found => .error (.wrongType found "a sequence")) cs

/-! ## Records -/

/-- A field of a record : its key, and how its value is entered. -/
structure Field (σ : Type) where
  key : String
  enter : σ → Reader σ

/-- The field whose value `read` reads and `set` enters. -/
def Field.of {σ α : Type} (key : String) (read : Reader α) (set : σ → α → σ) : Field σ where
  key
  enter record cs := (read cs).map fun (a, rest) => (set record a, rest)

/-- Reads the member that begins with this key, without its key, and gives the keys seen
with it. A key that is no field is passed over with its value. -/
def member {σ : Type} (fields : List (Field σ)) (key : String) (seen : List String)
    (record : σ) (cs : List Char) : Except Fault (List String × σ × List Char) :=
  match fields.find? fun f => f.key = key with
  | some f =>
    if key ∈ seen then .error (.misfit (.repeatedKey key))
    else do
      let cs ← mark ':' cs
      let (record, cs) ← f.enter record cs
      return (key :: seen, record, cs)
  | none => do
    let cs ← mark ':' cs
    let cs ← pass cs
    return (seen, record, cs)

/-- Reads members up to the end of the mapping, from a key on. -/
def members {σ : Type} (fields : List (Field σ)) : Nat → List String → σ → Reader σ
  | 0, _, _, _ => .error .malformed
  | fuel + 1, seen, record, cs => do
    let cs ← openKey cs
    let (key, cs) ← Text.read cs
    let (seen, record, cs) ← member fields (String.ofList key) seen record cs
    match skipSpace cs with
    | '}' :: rest => return (record, rest)
    | ',' :: rest => members fields fuel seen record rest
    | [] => .error .incomplete
    | _ => .error .malformed

/-- Reads the values of fields in their order, from after the first one on. Values may be
missing at the end. -/
def moreValues {σ : Type} : List (Field σ) → σ → Reader σ
  | [], record, cs => (mark ']' cs).map fun rest => (record, rest)
  | f :: fields, record, cs =>
    match skipSpace cs with
    | ']' :: rest => .ok (record, rest)
    | ',' :: rest =>
      match skipSpace rest with
      | ']' :: _ => .error .malformed
      | rest => do
        let (record, rest) ← f.enter record rest
        moreValues fields record rest
    | [] => .error .incomplete
    | _ => .error .malformed

/-- Reads the values of fields in their order. -/
def values {σ : Type} (fields : List (Field σ)) (record : σ) : Reader σ := fun cs =>
  match fields, skipSpace cs with
  | _, ']' :: rest => .ok (record, rest)
  | f :: fields, rest => do
    let (record, rest) ← f.enter record rest
    moreValues fields record rest
  | [], rest => moreValues [] record rest

/-- Reads a record : a mapping whose members are entered by their keys, or a sequence
whose values are entered in the order of the fields. A field that is not given keeps its
value in `default`. -/
def record {σ : Type} (expected : String) (fields : List (Field σ)) (default : σ) :
    Reader σ := fun cs =>
  match skipSpace cs with
  | '{' :: rest =>
    match skipSpace rest with
    | '}' :: rest => .ok (default, rest)
    | rest => members fields (rest.length + 1) [] default rest
  | '[' :: rest => values fields default rest
  | cs => ofScalar (fun found => .error (.wrongType found expected)) cs

/-! ## Documents -/

/-- Reads a document that is one value. -/
def document {α : Type} (read : Reader α) (cs : List Char) : Except Fault α :=
  match read cs with
  | .ok (a, rest) => if (skipSpace rest).isEmpty then .ok a else .error .malformed
  | .error e => .error e

end CoreFleet.Json
