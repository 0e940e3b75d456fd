/-!
# Pin/State — what a peer reports about a pin

Six states have a name on the wire; every other report is `unknown`.  A state is of the error class
(`isError`), of the healthy class (`isHealthy`), or neither, and never both.
-/

namespace PinKeeper

/-- State of a pin on one peer. -/
inductive PinState where
  | pinned
  | pinning
  | queued
  | remote
  | pinError
  | error
  | unknown
deriving DecidableEq, Repr, Inhabited

namespace PinState

/-- Name on the wire. -/
def name : PinState → String
  | .pinned => "pinned"
  | .pinning => "pinning"
  | .queued => "pin_queued"
  | .remote => "remote"
  | .pinError => "pin_error"
  | .error => "error"
  | .unknown => "unknown"

/-- State with a name; any other name means `unknown`. -/
def ofName (s : String) : PinState :=
  if s = "pinned" then .pinned
  else if s = "pinning" then .pinning
  else if s = "pin_queued" then .queued
  else if s = "remote" then .remote
  else if s = "pin_error" then .pinError
  else if s = "error" then .error
  else .unknown

/-- The peer tried and failed. -/
def isError : PinState → Bool
  | .pinError | .error => true
  | _ => false

/-- The content is held or on its way. -/
def isHealthy : PinState → Bool
  | .pinned | .remote | .pinning | .queued => true
  | _ => false

theorem ofName_name : ∀ s : PinState, ofName s.name = s := by
  intro s; cases s <;> decide

theorem not_isHealthy_of_isError : ∀ {s : PinState}, s.isError = true → s.isHealthy = false := by
  intro s; cases s <;> decide

end PinState

end PinKeeper
