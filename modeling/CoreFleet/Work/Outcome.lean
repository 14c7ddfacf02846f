/-!
# Outcomes of calls

A call of a unit succeeds, fails with a text, or panics with a payload. `Outcome.failure`
is the text under which a call that did not succeed is recorded.
-/

namespace CoreFleet

/-- What a panic carries. -/
inductive Payload
  /-- A message. -/
  | text (message : String)
  /-- A value that is no message. -/
  | other
  deriving DecidableEq, Repr

/-- The wording of a panic. -/
def Payload.describe : Payload → String
  | text message => "panicked: " ++ message
  | other => "panicked"

/-- How a call of a unit ends. -/
inductive Outcome
  | ok
  | failed (reason : String)
  | panicked (payload : Payload)
  deriving DecidableEq, Repr

/-- The text recorded for a call that did not succeed. -/
def Outcome.failure : Outcome → Option String
  | ok => none
  | failed reason => some reason
  | panicked payload => some payload.describe

theorem Outcome.failure_eq_none_iff {o : Outcome} : o.failure = none ↔ o = .ok := by
  cases o <;> simp [failure]

end CoreFleet
