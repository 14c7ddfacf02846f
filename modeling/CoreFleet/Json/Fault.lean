import CoreFleet.Decimal.Spelling
import CoreFleet.Text.Quoted

/-!
# Faults of documents

A document that cannot be read ends too early, is no JSON text, or has a value that does
not fit its place. Reading goes from left to right and stops at the first fault.
-/

namespace CoreFleet.Json

/-- What stands where a value was expected. Of a sequence or a mapping only the beginning
was seen. -/
inductive Found
  | null
  | boolean (b : Bool)
  | integer (z : Int)
  | decimal (x : Float)
  | text (s : String)
  | sequence
  | mapping

/-- How a value does not fit its place. -/
inductive Misfit
  /-- The value is of another type. -/
  | wrongType (found : Found) (expected : String)
  /-- The integer is out of range. -/
  | outOfRange (z : Int) (expected : String)
  /-- The key occurs for the second time. -/
  | repeatedKey (key : String)

/-- Why a document could not be read. -/
inductive Fault
  /-- The text ends before the document does. -/
  | incomplete
  /-- The text is not JSON. -/
  | malformed
  | misfit (m : Misfit)

/-- In messages decimals are written out from a hundred-thousandth up to sixteen digits,
and all others with a signed exponent. -/
def decimalSpelling : Decimal.Spelling where
  leastPositional := -5
  greatestPositional := 15
  wholeMark := ['.', '0']

/-- A text between grave accents. -/
def graved (s : String) : String := "\x60" ++ s ++ "\x60"

/-- The wording of what was found. -/
def Found.describe : Found → String
  | null => "null"
  | boolean b => "boolean " ++ graved (if b then "true" else "false")
  | integer z => "integer " ++ graved (Numeral.signedText z)
  | decimal x =>
    "floating point " ++ graved (String.ofList (decimalSpelling.spellBits x.toBits.toNat))
  | text s => "string " ++ Text.quote s
  | sequence => "sequence"
  | mapping => "map"

/-- The wording of a misfit. -/
def Misfit.message : Misfit → String
  | wrongType found expected => "invalid type: " ++ found.describe ++ ", expected " ++ expected
  | outOfRange z expected =>
    "invalid value: " ++ (Found.integer z).describe ++ ", expected " ++ expected
  | repeatedKey key => "duplicate field " ++ graved key

end CoreFleet.Json
