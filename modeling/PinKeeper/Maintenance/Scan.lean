import PinKeeper.Json.Basic
import PinKeeper.Pin.Basic
import PinKeeper.Time.Instant

/-!
# Maintenance/Scan — what the passes over all pins have in common

A pass may be a dry run, which writes nothing, and pauses after each write so that the cluster is
not flooded.  Its severity is the exit code of the program.
-/

namespace PinKeeper

/-- Settings of a pass over all pins. -/
structure Scan (m : Type → Type) where
  dryRun : Bool
  /-- Pause after a write. -/
  pause : m Unit

/-- Pass without pauses. -/
def Scan.plain [Monad m] (dryRun : Bool) : Scan m := ⟨dryRun, pure ()⟩

/-- Severity: errors before changes before nothing to do. -/
def severityOf (failed changed : Bool) : Nat := if failed then 2 else if changed then 1 else 0

/-- Member for the time of a report. -/
def checkedAt (time : Time.Instant) : String × Json := ("checked_at", .text time.text)

end PinKeeper
