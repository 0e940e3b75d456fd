import PinKeeper.Cluster.Interface
import PinKeeper.Maintenance.Scan
import PinKeeper.Placement.Required
import PinKeeper.Text.Decimal

/-!
# Maintenance/Migrate — adding what every pin should have

Two passes over the pins that only ever add.  `ensurePins` adds the peers that a profile requires to
every allocation, `tagPins` the owner and the size to the metadata where they are missing.  Each
request repeats all that it does not change.
-/

namespace PinKeeper.Migrate

/-- Pin that could not be brought up to date. -/
structure PinFailure where
  cid : String
  error : String
deriving DecidableEq, Repr

def PinFailure.toJson (f : PinFailure) : Json :=
  .object [("cid", .text f.cid), ("error", .text f.error)]

/-- What became of a pin. -/
inductive Outcome where
  | untouched
  | changed
  | failed (error : String)
deriving DecidableEq, Repr

/-- Identifiers of pins with what became of them. -/
abbrev Log := List (String × Outcome)

namespace Log

/-- Number of pins of which something became. -/
def count (o : Outcome) (log : Log) : Nat := (log.filter fun e => e.2 = o).length

/-- The pins that failed. -/
def failures (log : Log) : List PinFailure :=
  log.filterMap fun e =>
    match e.2 with
    | .failed error => some ⟨e.1, error⟩
    | _ => none

end Log

variable {m : Type → Type} [Monad m]

/-- Sends a request, unless the run is dry. -/
def send (cluster : Cluster m) (scan : Scan m) (r : PinRequest) : m Outcome := do
  if scan.dryRun then return .changed
  else
    let answer ← cluster.pin r
    scan.pause
    match answer with
    | .ok _ => return .changed
    | .error e => return .failed e.message

/-- Applies a step to pins, one after the other. -/
def forEach (step : Pin → m Outcome) : List Pin → m Log
  | [] => return []
  | pin :: pins => do
    let o ← step pin
    return (pin.cid, o) :: (← forEach step pins)

/-! ## Required peers -/

/-- Allocation with the required peers added at its end. -/
def mergeAllocations (existing required : List String) : List String :=
  required.foldl Policy.addNew existing

/-- Account of a run. -/
structure EnsureReport where
  total : Nat
  alreadyCorrect : Nat
  fixed : Nat
  errors : Nat
  dryRun : Bool
  requiredPeers : List String
  failures : List PinFailure
deriving DecidableEq, Repr

namespace EnsureReport

/-- Account of what became of the pins. -/
def ofLog (required : List String) (dryRun : Bool) (log : Log) : EnsureReport where
  total := log.length
  alreadyCorrect := log.count .untouched
  fixed := log.count .changed
  errors := log.failures.length
  dryRun := dryRun
  requiredPeers := required
  failures := log.failures

/-- Exit code: two for errors, one for changes. -/
def severity (r : EnsureReport) : Nat := severityOf (0 < r.errors) (0 < r.fixed)

def summary (r : EnsureReport) : String :=
  Text.natural r.total ++ " pins: " ++ Text.natural r.alreadyCorrect ++ " already correct, " ++
    Text.natural r.fixed ++ " fixed, " ++ Text.natural r.errors ++ " errors"

def toJson (time : Time.Instant) (r : EnsureReport) : Json :=
  .object [
    checkedAt time,
    ("total", Json.count r.total),
    ("already_correct", Json.count r.alreadyCorrect),
    ("fixed", Json.count r.fixed),
    ("errors", Json.count r.errors),
    ("dry_run", .bool r.dryRun),
    ("required_peers", Json.texts r.requiredPeers),
    ("error_details", .array (r.failures.map (·.toJson)))]

end EnsureReport

/-- Adds the required peers to a pin that lacks one. -/
def ensurePin (cluster : Cluster m) (scan : Scan m) (required : List String) (pin : Pin) :
    m Outcome := do
  if required.all pin.allocations.contains then return .untouched
  else
    send cluster scan
      { PinRequest.ofPin pin with allocations := mergeAllocations pin.allocations required }

/-- Makes every pin include the peers that a profile requires. -/
def ensurePins (cluster : Cluster m) (p : Policy) (profile : String) (scan : Scan m) :
    m (Except Failure EnsureReport) := do
  match p.requiredFor profile with
  | .error e => return .error (.allocation e)
  | .ok required =>
    match ← cluster.pins with
    | .error e => return .error (.transport e)
    | .ok pins =>
      let log ← forEach (ensurePin cluster scan required) pins
      return .ok (EnsureReport.ofLog required scan.dryRun log)

/-! ## Tags -/

/-- Account of a run. -/
structure TagReport where
  total : Nat
  tagged : Nat
  skipped : Nat
  errors : Nat
  dryRun : Bool
  failures : List PinFailure
deriving DecidableEq, Repr

namespace TagReport

/-- Account of what became of the pins. -/
def ofLog (dryRun : Bool) (log : Log) : TagReport where
  total := log.length
  tagged := log.count .changed
  skipped := log.count .untouched
  errors := log.failures.length
  dryRun := dryRun
  failures := log.failures

/-- Exit code: two for errors, one for changes. -/
def severity (r : TagReport) : Nat := severityOf (0 < r.errors) (0 < r.tagged)

def summary (r : TagReport) : String :=
  Text.natural r.total ++ " pins: " ++ Text.natural r.tagged ++ " tagged, " ++
    Text.natural r.skipped ++ " skipped, " ++ Text.natural r.errors ++ " errors"

def toJson (time : Time.Instant) (r : TagReport) : Json :=
  .object [
    checkedAt time,
    ("total", Json.count r.total),
    ("tagged", Json.count r.tagged),
    ("skipped", Json.count r.skipped),
    ("errors", Json.count r.errors),
    ("dry_run", .bool r.dryRun),
    ("error_details", .array (r.failures.map (·.toJson)))]

end TagReport

/-- Size that a pin should be tagged with: none if it has a tag or if the cluster does not say. -/
def missingSize (cluster : Cluster m) (pin : Pin) : m (Option Nat) := do
  if pin.sizeTag.isSome then return none
  else
    match ← cluster.dagSize pin.cid with
    | .ok size => return some size
    | .error _ => return none

/-- Metadata of a pin with the owner where it has none, and with a size. -/
def tagged (pin : Pin) (profile : String) (size : Option Nat) : Dict String :=
  let owned := if pin.org.isNone then pin.metadata.insert orgKey profile else pin.metadata
  match size with
  | some n => owned.insert sizeKey (Text.natural n)
  | none => owned

/-- Adds the missing tags to a pin; that is an error if there is none to add. -/
def tagPin (cluster : Cluster m) (scan : Scan m) (profile : String) (pin : Pin) : m Outcome := do
  if pin.org.isSome && pin.sizeTag.isSome then return .untouched
  else
    let size ← missingSize cluster pin
    if pin.org.isSome && size.isNone then
      return .failed "size lookup failed and org already set"
    else
      send cluster scan { PinRequest.ofPin pin with metadata := tagged pin profile size }

/-- Failure for a profile that the policy does not have. -/
def unknownProfile (profile : String) : Failure :=
  .configuration ("Profile '" ++ profile ++ "' not found in config")

/-- Gives every pin the tags it lacks. -/
def tagPins (cluster : Cluster m) (p : Policy) (profile : String) (scan : Scan m) :
    m (Except Failure TagReport) := do
  if (p.profile profile).isNone then return .error (unknownProfile profile)
  else
    match ← cluster.pins with
    | .error e => return .error (.transport e)
    | .ok pins =>
      let log ← forEach (tagPin cluster scan profile) pins
      return .ok (TagReport.ofLog scan.dryRun log)

end PinKeeper.Migrate
