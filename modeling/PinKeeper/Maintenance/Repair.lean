import PinKeeper.Cluster.Interface
import PinKeeper.Maintenance.Scan
import PinKeeper.Policy.Basic
import PinKeeper.Text.Decimal

/-!
# Maintenance/Repair — recovering pins that failed on some peer

A pin is broken if a peer reports a state of the error class.  It can be recovered as long as some
peer holds it or is about to; else it is lost and only reported.  `repair` asks for the recovery of
each broken pin that is not lost.
-/

namespace PinKeeper.Repair

/-- What became of a broken pin. -/
inductive Recovery where
  | none
  | triggered
  | failed (cause : ClusterError)
deriving DecidableEq, Repr

/-- Pin with a peer in the error class: the nodes that failed and those that are healthy. -/
structure BrokenPin where
  cid : String
  name : Option String
  errorNodes : List String
  healthyNodes : List String
  recovery : Recovery
deriving DecidableEq, Repr

namespace BrokenPin

/-- True if some node holds the content or is about to. -/
def recoverable (b : BrokenPin) : Bool := !b.healthyNodes.isEmpty

/-- True if the recovery was triggered. -/
def recovered (b : BrokenPin) : Bool := b.recovery = .triggered

/-- Why the recovery was not triggered, if it was tried. -/
def recoverError (b : BrokenPin) : Option String :=
  match b.recovery with
  | .failed e => some e.message
  | _ => Option.none

def toJson (b : BrokenPin) : Json :=
  .object [
    ("cid", .text b.cid),
    ("name", Json.optionalText b.name),
    ("recoverable", .bool b.recoverable),
    ("error_nodes", Json.texts b.errorNodes),
    ("healthy_nodes", Json.texts b.healthyNodes),
    ("recovered", .bool b.recovered),
    ("recover_error", Json.optionalText b.recoverError)]

end BrokenPin

/-- Name of a peer: of its node, else the one it gives itself, else its id. -/
def nodeName (p : Policy) (id : String) (s : PeerStatus) : String :=
  match p.nodeOfPeer id with
  | some n => n.name
  | none => if s.peername.isEmpty then id else s.peername

/-- Names of the peers whose reports are of a kind. -/
def nodesWith (p : Policy) (pin : Pin) (kind : PinState → Bool) : List String :=
  (pin.peerMap.entries.filter fun e => kind e.2.state).map fun e => nodeName p e.1 e.2

/-- The pin as a broken one, if it is. -/
def classify (p : Policy) (pin : Pin) : Option BrokenPin :=
  let failed := nodesWith p pin PinState.isError
  if failed.isEmpty then Option.none
  else some ⟨pin.cid, pin.name, failed, nodesWith p pin PinState.isHealthy, .none⟩

/-- Account of a run. -/
structure Report where
  total : Nat
  broken : Nat
  recoverable : Nat
  lost : Nat
  recovered : Nat
  recoverErrors : Nat
  dryRun : Bool
  brokenPins : List BrokenPin
deriving DecidableEq, Repr

namespace Report

/-- Account of the broken pins. -/
def ofBroken (total : Nat) (dryRun : Bool) (broken : List BrokenPin) : Report where
  total := total
  broken := broken.length
  recoverable := (broken.filter (·.recoverable)).length
  lost := (broken.filter fun b => !b.recoverable).length
  recovered := (broken.filter (·.recovered)).length
  recoverErrors := (broken.filter (·.recoverError.isSome)).length
  dryRun := dryRun
  brokenPins := broken

/-- Exit code: two for lost pins, one for broken ones. -/
def severity (r : Report) : Nat := severityOf (0 < r.lost) (0 < r.broken)

def summary (r : Report) : String :=
  "Checked " ++ Text.natural r.total ++ " pins: " ++ Text.natural r.broken ++ " broken, " ++
    Text.natural r.recoverable ++ " recoverable, " ++ Text.natural r.lost ++ " lost, " ++
    Text.natural r.recovered ++ " recovered, " ++ Text.natural r.recoverErrors ++ " recover errors"

def toJson (time : Time.Instant) (r : Report) : Json :=
  .object [
    checkedAt time,
    ("total_pins", Json.count r.total),
    ("broken", Json.count r.broken),
    ("recoverable", Json.count r.recoverable),
    ("lost", Json.count r.lost),
    ("recovered", Json.count r.recovered),
    ("recover_errors", Json.count r.recoverErrors),
    ("dry_run", .bool r.dryRun),
    ("broken_pins", .array (r.brokenPins.map (·.toJson)))]

end Report

/-! ## The run -/

variable {m : Type → Type} [Monad m]

/-- Asks for the recovery of a broken pin, unless it is lost. -/
def recover (cluster : Cluster m) (scan : Scan m) (b : BrokenPin) : m BrokenPin := do
  if !b.recoverable || scan.dryRun then return b
  else
    let answer ← cluster.recover b.cid
    scan.pause
    match answer with
    | .ok _ => return { b with recovery := .triggered }
    | .error e => return { b with recovery := .failed e }

/-- Asks for the recovery of broken pins, one after the other. -/
def recoverAll (cluster : Cluster m) (scan : Scan m) : List BrokenPin → m (List BrokenPin)
  | [] => return []
  | b :: bs => do
    let b ← recover cluster scan b
    return b :: (← recoverAll cluster scan bs)

/-- Examines every pin.  It fails as a whole if the pins cannot be listed. -/
def repair (cluster : Cluster m) (p : Policy) (scan : Scan m) :
    m (Except ClusterError Report) := do
  match ← cluster.pins with
  | .error e => return .error e
  | .ok pins =>
    let broken ← recoverAll cluster scan (pins.filterMap (classify p))
    return .ok (Report.ofBroken pins.length scan.dryRun broken)

end PinKeeper.Repair
