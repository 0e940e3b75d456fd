import PinKeeper.Cluster.Interface
import PinKeeper.Maintenance.Scan
import PinKeeper.Placement.Plan
import PinKeeper.Text.Decimal
import PinKeeper.Total

/-!
# Maintenance/Rebalance — bringing every pin to the allocation it should have

`rebalance` plans each pin in turn and asks the cluster for what has to change.  What became of each
pin is a `Settled`; the counts, the list of changes and the balance of the nodes are read off the
list of these (`Report.ofSettled`).  A pin whose request failed keeps the allocation it had.
-/

namespace PinKeeper.Rebalance

/-! ## What becomes of a pin -/

/-- Result of a plan. -/
inductive Outcome where
  | alreadyCorrect
  | changed
  | failed (cause : ClusterError)
deriving DecidableEq, Repr

/-- Word for a result. -/
def Outcome.name : Outcome → String
  | .alreadyCorrect => "already_correct"
  | .changed => "rebalance"
  | .failed _ => "error"

def Outcome.isFailed : Outcome → Bool
  | .failed _ => true
  | _ => false

/-- Pin with its plan and what came of it. -/
structure Settled where
  pin : Pin
  plan : Plan
  outcome : Outcome

/-- Known peers that the pin is allocated to in the end. -/
def Settled.kept (s : Settled) : List String :=
  match s.outcome with
  | .changed => s.plan.allocation
  | _ => s.plan.current

/-! ## The report -/

/-- Change of a pin, with the peers by name. -/
structure Action where
  cid : String
  name : Option String
  outcome : Outcome
  before : List String
  after : List String
  added : List String
  removed : List String
deriving DecidableEq, Repr

/-- Pins on a node before and after. -/
structure NodeBalance where
  node : String
  peerId : String
  available : Nat
  before : Nat
  after : Nat
deriving DecidableEq, Repr

/-- Account of a run. -/
structure Report where
  total : Nat
  replicationMin : Nat
  replicationMax : Nat
  alreadyCorrect : Nat
  rebalanced : Nat
  addedReplicas : Nat
  removedReplicas : Nat
  errors : Nat
  dryRun : Bool
  /-- Pins that were changed or should have been. -/
  actions : List Action
  nodes : List NodeBalance
deriving DecidableEq, Repr

/-- Change of a pin, if there was one to make. -/
def Settled.action? (c : Placement) (s : Settled) : Option Action :=
  let names (ids : List String) := ids.map c.displayName
  let entry (after : List String) : Action :=
    ⟨s.pin.cid, s.pin.name, s.outcome, names s.pin.allocations, after, names s.plan.added,
      names s.plan.removed⟩
  match s.outcome with
  | .alreadyCorrect => none
  | .changed => some (entry (names s.plan.allocation))
  | .failed _ => some (entry (names s.pin.allocations))

/-- Number of lists that an element is in. -/
def countIn (id : String) (lists : List (List String)) : Nat :=
  (lists.filter fun ids => ids.contains id).length

/-- Balance of a node over the pins of a run. -/
def balanceOf (c : Placement) (settled : List Settled) (id name : String) : NodeBalance :=
  ⟨name, id, c.capacityOf id, countIn id (settled.map (·.plan.current)),
    countIn id (settled.map (·.kept))⟩

namespace Report

/-- Account of what became of the pins. -/
def ofSettled (c : Placement) (dryRun : Bool) (settled : List Settled) : Report :=
  let changed := settled.filter fun s => s.outcome = .changed
  { total := settled.length
    replicationMin := c.replicationMin
    replicationMax := c.replicationMax
    alreadyCorrect := (settled.filter fun s => s.outcome = .alreadyCorrect).length
    rebalanced := changed.length
    addedReplicas := sumOf (changed.map fun s => s.plan.added.length)
    removedReplicas := sumOf (changed.map fun s => s.plan.removed.length)
    errors := (settled.filter fun s => s.outcome.isFailed).length
    dryRun := dryRun
    actions := settled.filterMap (Settled.action? c)
    nodes := c.known.entries.map fun (id, name) => balanceOf c settled id name }

/-- Exit code: two for errors, one for changes. -/
def severity (r : Report) : Nat :=
  severityOf (0 < r.errors) (0 < r.addedReplicas || 0 < r.removedReplicas)

def summary (r : Report) : String :=
  Text.natural r.total ++ " pins: " ++ Text.natural r.alreadyCorrect ++ " already correct, " ++
    Text.natural r.rebalanced ++ " rebalanced (+" ++ Text.natural r.addedReplicas ++ " / -" ++
    Text.natural r.removedReplicas ++ " replicas), " ++ Text.natural r.errors ++ " errors"

end Report

/-- Error of a change. -/
def Action.error? (a : Action) : Option String :=
  match a.outcome with
  | .failed e => some e.message
  | _ => none

def Action.toJson (a : Action) : Json :=
  .object [
    ("cid", .text a.cid),
    ("name", Json.optionalText a.name),
    ("action", .text a.outcome.name),
    ("before", Json.texts a.before),
    ("after", Json.texts a.after),
    ("added", Json.texts a.added),
    ("removed", Json.texts a.removed),
    ("error", Json.optionalText a.error?)]

def NodeBalance.toJson (b : NodeBalance) : Json :=
  .object [
    ("node", .text b.node),
    ("peer_id", .text b.peerId),
    ("available_bytes", Json.count b.available),
    ("before", Json.count b.before),
    ("after", Json.count b.after)]

def Report.toJson (time : Time.Instant) (r : Report) : Json :=
  .object [
    checkedAt time,
    ("total_pins", Json.count r.total),
    ("replication_min", Json.count r.replicationMin),
    ("replication_max", Json.count r.replicationMax),
    ("already_correct", Json.count r.alreadyCorrect),
    ("rebalanced", Json.count r.rebalanced),
    ("added_replicas", Json.count r.addedReplicas),
    ("removed_replicas", Json.count r.removedReplicas),
    ("errors", Json.count r.errors),
    ("dry_run", .bool r.dryRun),
    ("actions", .array (r.actions.map (·.toJson))),
    ("nodes", .array (r.nodes.map (·.toJson)))]

/-! ## The run -/

/-- Note after each pin: how many are done, of how many, and what became of this one. -/
structure Progress where
  done : Nat
  total : Nat
  cid : String
  outcome : Outcome
deriving DecidableEq, Repr

/-- Plan of a pin by a policy. -/
def planFor (p : Policy) (c : Placement) (pin : Pin) : Plan :=
  Plan.make c pin.allocations (p.requiredPeers pin)

variable {m : Type → Type} [Monad m]

/-- Makes the change of a pin that its plan asks for. -/
def settle (cluster : Cluster m) (p : Policy) (c : Placement) (scan : Scan m) (pin : Pin) :
    m Settled := do
  let plan := planFor p c pin
  if plan.isNoop then return ⟨pin, plan, .alreadyCorrect⟩
  else if scan.dryRun then return ⟨pin, plan, .changed⟩
  else
    let answer ← cluster.pin { PinRequest.ofPin pin with allocations := plan.allocation }
    scan.pause
    match answer with
    | .ok _ => return ⟨pin, plan, .changed⟩
    | .error e => return ⟨pin, plan, .failed e⟩

/-- Settles pins one after the other, of which `done` of `total` are settled already. -/
def settleAll (cluster : Cluster m) (p : Policy) (c : Placement) (scan : Scan m)
    (note : Progress → m Unit) (total : Nat) : (done : Nat) → List Pin → m (List Settled)
  | _, [] => return []
  | done, pin :: pins => do
    let s ← settle cluster p c scan pin
    note ⟨done + 1, total, pin.cid, s.outcome⟩
    return s :: (← settleAll cluster p c scan note total (done + 1) pins)

/-- True if the bounds of a policy leave room for an allocation. -/
def boundsValid (p : Policy) : Bool :=
  1 ≤ p.replicationMin && p.replicationMin ≤ p.replicationMax

/-- Failure for bounds that leave no room. -/
def boundsFailure (p : Policy) : Failure :=
  .configuration ("invalid replication bounds: min " ++ Text.natural p.replicationMin ++ " max " ++
    Text.natural p.replicationMax)

/-- Rebalances every pin.  It fails as a whole if the bounds are invalid or if the free space or the
pins cannot be listed. -/
def rebalance (cluster : Cluster m) (p : Policy) (scan : Scan m) (note : Progress → m Unit) :
    m (Except Failure Report) := do
  if !boundsValid p then return .error (boundsFailure p)
  else
    match ← cluster.freeSpace with
    | .error e => return .error (.transport e)
    | .ok freeSpace =>
      match ← cluster.pins with
      | .error e => return .error (.transport e)
      | .ok pins =>
        let c := Placement.ofPolicy p freeSpace
        let settled ← settleAll cluster p c scan note pins.length 0 pins
        return .ok (Report.ofSettled c scan.dryRun settled)

end PinKeeper.Rebalance
