import PinKeeper.Cluster.Interface
import PinKeeper.Maintenance.Scan
import PinKeeper.Text.Decimal

/-!
# Health — the state of the cluster at one glance

The peers and the pins are listed and set against each other: each peer gets a row with the number
of pins that it holds, tracks or failed on, and each report of the error class a record.  The whole
is in error when a peer is offline, degraded when a pin failed somewhere, and otherwise fine; a
listing that could not be fetched is never fine.
-/

namespace PinKeeper.Health

inductive Status where
  | ok
  | degraded
  | error
deriving DecidableEq, Repr

/-- Exit code. -/
def Status.severity : Status → Nat
  | .ok => 0
  | .degraded => 1
  | .error => 2

def Status.name : Status → String
  | .ok => "ok"
  | .degraded => "degraded"
  | .error => "error"

/-- Row of a peer. -/
structure NodeHealth where
  name : String
  peerId : String
  online : Bool
  pinned : Nat
  remote : Nat
  pinError : Nat
  /-- Error that the peer reports about itself. -/
  error : Option String
deriving DecidableEq, Repr

/-- An online peer is degraded by the pins that it failed on. -/
def NodeHealth.status (n : NodeHealth) : Status :=
  if !n.online then .error else if 0 < n.pinError then .degraded else .ok

/-- Pin that failed on a peer. -/
structure PinErrorRecord where
  cid : String
  node : String
  error : String
deriving DecidableEq, Repr

structure Report where
  status : Status
  total : Nat
  online : Nat
  offline : Nat
  pins : Nat
  nodes : List NodeHealth
  pinErrors : List PinErrorRecord
  /-- Listings that could not be fetched. -/
  errors : List String
deriving DecidableEq, Repr

/-! ## Rows and records -/

/-- Number of pins that a peer reports a state of some kind about. -/
def countPins (pins : List Pin) (id : String) (kind : PinState → Bool) : Nat :=
  (pins.filter fun p => (p.stateOf id).any kind).length

/-- Row of a listed peer. -/
def row (pins : List Pin) (p : Peer) : NodeHealth where
  name := p.name
  peerId := p.peerId
  online := p.isOnline
  pinned := countPins pins p.peerId (· == .pinned)
  remote := countPins pins p.peerId (· == .remote)
  pinError := countPins pins p.peerId PinState.isError
  error := p.error

/-- Listed peers by id; of those with one id the last stays. -/
def byId (peers : List Peer) : Dict Peer := Dict.ofList (peers.map fun p => (p.peerId, p))

/-- Name of a peer in a record: the listed one, else the one that it gives itself. -/
def recordName (peers : Dict Peer) (id : String) (s : PeerStatus) : String :=
  match peers.find? id with
  | some p => if p.name.isEmpty then s.peername else p.name
  | none => s.peername

/-- Records of a pin, in the order of the peer ids. -/
def recordsOf (peers : Dict Peer) (p : Pin) : List PinErrorRecord :=
  (p.peerMap.entries.filter fun e => e.2.state.isError).map fun e =>
    ⟨shortCid p.cid, recordName peers e.1 e.2, e.2.error.getD e.2.state.name⟩

/-- State of the whole. -/
def overall (offline : Nat) (peersListed : Bool) (pinErrors : List PinErrorRecord)
    (errors : List String) : Status :=
  if 0 < offline || (!errors.isEmpty && !peersListed) then .error
  else if !pinErrors.isEmpty || !errors.isEmpty then .degraded
  else .ok

/-- Report on peers and pins, with the errors of listings that failed. -/
def aggregate (peers : List Peer) (pins : List Pin) (errors : List String) : Report :=
  let listed := byId peers
  let nodes := listed.values.map (row pins)
  let online := (nodes.filter (·.online)).length
  let pinErrors := pins.flatMap (recordsOf listed)
  { status := overall (nodes.length - online) (!peers.isEmpty) pinErrors errors
    total := nodes.length
    online := online
    offline := nodes.length - online
    pins := pins.length
    nodes := nodes
    pinErrors := pinErrors
    errors := errors }

namespace Report

def severity (r : Report) : Nat := r.status.severity

def summary (r : Report) : String :=
  r.status.name ++ ": " ++ Text.natural r.online ++ "/" ++ Text.natural r.total ++
    " peers online, " ++ Text.natural r.pins ++ " pins, " ++ Text.natural r.pinErrors.length ++
    " pin errors"

end Report

/-! ## In JSON -/

def NodeHealth.toJson (n : NodeHealth) : Json :=
  .object [
    ("name", .text n.name),
    ("peer_id", .text n.peerId),
    ("online", .bool n.online),
    ("status", .text n.status.name),
    ("pinned", Json.count n.pinned),
    ("remote", Json.count n.remote),
    ("pin_error", Json.count n.pinError),
    ("error", Json.optionalText n.error)]

def PinErrorRecord.toJson (r : PinErrorRecord) : Json :=
  .object [("cid", .text r.cid), ("node", .text r.node), ("error", .text r.error)]

/-- Report in JSON; the errors of listings are left out where there is none. -/
def Report.toJson (time : Time.Instant) (r : Report) : Json :=
  .object ([
    ("status", .text r.status.name),
    checkedAt time,
    ("peers", .object [
      ("total", Json.count r.total),
      ("online", Json.count r.online),
      ("offline", Json.count r.offline)]),
    ("pins", .object [("total", Json.count r.pins)]),
    ("nodes", .array (r.nodes.map (·.toJson))),
    ("pin_errors", .array (r.pinErrors.map (·.toJson)))] ++
    if r.errors.isEmpty then [] else [("errors", Json.texts r.errors)])

/-! ## The check -/

/-- Report on what could be listed; none if neither the peers nor the pins could be. -/
def ofListings : Except ClusterError (List Peer) → Except ClusterError (List Pin) →
    Except ClusterError Report
  | .error e, .error _ => .error e
  | .ok peers, .ok pins => .ok (aggregate peers pins [])
  | .error e, .ok pins => .ok (aggregate [] pins ["peers: " ++ e.message])
  | .ok peers, .error e => .ok (aggregate peers [] ["pins: " ++ e.message])

/-- Lists peers and pins and reports on them. -/
def check [Monad m] (cluster : Cluster m) : m (Except ClusterError Report) := do
  let peers ← cluster.peers
  let pins ← cluster.pins
  return ofListings peers pins

end PinKeeper.Health
