/-!
# Clock readings and durations

Readings and durations count nanoseconds. A deadline is a reading plus a duration ; a sum
that no reading can represent gives none, and waiting for it has no limit.
-/

namespace CoreFleet.Clock

/-- Nanoseconds in a microsecond. -/
abbrev micros : Nat := 1000

/-- Nanoseconds in a millisecond. -/
abbrev millis : Nat := 1000000

/-- Every reading is below this bound : readings count seconds in a signed 64-bit word. -/
def limit : Nat := 9223372036854775808 * 1000000000

/-- The longest duration : seconds fill an unsigned 64-bit word. -/
def longest : Nat := 18446744073709551616 * 1000000000 - 1

/-- The reading `d` after `t`, if a reading can represent it. -/
def after? (t d : Nat) : Option Nat := if t + d < limit then some (t + d) else none

end CoreFleet.Clock
