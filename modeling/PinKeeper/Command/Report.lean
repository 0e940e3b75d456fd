import PinKeeper.Health
import PinKeeper.Maintenance.Migrate
import PinKeeper.Maintenance.Rebalance
import PinKeeper.Maintenance.Repair
import PinKeeper.Policy.Validate
import PinKeeper.Text.ByteSize
import PinKeeper.Upload

/-!
# Command/Report — results as pages of text

A page is a list of lines.  Tables have columns of fixed width, and a cell that is too long pushes
the rest of its line to the right.
-/

namespace PinKeeper.Command.Report

open Text (padRight padLeft natural joined)

/-! ## Marks -/

def checkMark : String := "✓"

def crossMark : String := "✗"

def warnMark : String := "!"

def infoMark : String := "*"

/-- Text of a page. -/
def text (lines : List String) : String := String.join (lines.map (· ++ "\n"))

/-- Names in a row. -/
def names (ns : List String) : String := joined ", " ns

/-! ## The policy -/

/-- Contents of a policy; the password is not shown. -/
def policy (path : String) (p : Policy) : List String :=
  ["", "CCS Policy", "", "Policy file: " ++ path,
    "  backup_node     = " ++ p.backupNode.getD "(unset)",
    "  default_node    = " ++ p.defaultNode.getD "(unset)",
    "  replication_min = " ++ natural p.replicationMin,
    "  replication_max = " ++ natural p.replicationMax,
    "  auth            = " ++ (match p.auth with
      | some a => a.user ++ " / ********"
      | none => "(none)"),
    "", "[nodes]"] ++
  p.nodes.values.map (fun n =>
    "  " ++ padRight 12 n.name ++ " " ++ padRight 28 n.host ++ " " ++
      padRight 54 (n.peerId.getD "(no peer_id)") ++ " reserved " ++ natural n.reservedGb ++
      " GB") ++
  ["", "[profiles]"] ++
  p.profiles.values.map fun q => "  " ++ padRight 12 q.name ++ " primary = " ++ q.primary

/-- Faults and oddities of a policy. -/
def problems (path : String) (p : Policy) : List String :=
  p.concerns.map (fun c => warnMark ++ " " ++ c.message) ++
  p.problems.map (fun e => crossMark ++ " " ++ e.message) ++
  if p.problems.isEmpty then
    [checkMark ++ " " ++ path ++ " is valid (" ++ natural p.concerns.length ++ " warnings)"]
  else []

/-! ## Content -/

/-- Mark and words for how an upload ended. -/
def outcome : AddOutcome → String
  | .success => checkMark ++ " Added"
  | .partialSuccess => warnMark ++ " Added (partial)"
  | .failed => crossMark ++ " Add failed"
  | .configError => crossMark ++ " Configuration error"

/-- Result of an upload. -/
def added (r : AddResult) : List String :=
  [outcome r.outcome ++ " " ++ r.rootPath] ++
  (if r.rootCid.isEmpty then [] else
    ["  Root CID:    " ++ r.rootCid,
      "  Entries:     " ++ natural r.entries.length,
      "  Size:        " ++ Text.byteSize ((r.rootEntry.map (·.size)).getD 0),
      "  Host:        " ++ r.clusterHost] ++
    match r.replicaCount with
    | some n => ["  Replicas:    " ++ natural n]
    | none => []) ++
  (match r.note with
    | some note => ["  " ++ note]
    | none => []) ++
  match r.error with
    | some error => ["  Error: " ++ error]
    | none => []

/-- Result of a download. -/
def downloaded (cid : String) (d : Download) : List String :=
  [checkMark ++ " Downloaded " ++ cid ++ " to " ++ d.path ++ " (" ++ Text.byteSize d.bytes ++
    (if d.isDirectory then ", tar archive" else "") ++ ")"]

/-! ## Pins and peers -/

/-- Line with the name of a pin, if it has one. -/
def nameLine (label : String) (name : Option String) : List String :=
  match name with
  | some name => [label ++ name]
  | none => []

/-- One pin. -/
def pin (p : Policy) (pin : Pin) : List String :=
  ["Pin " ++ pin.cid] ++ nameLine "  Name:         " pin.name ++
  nameLine "  Org:          " pin.org ++ nameLine "  Size:         " pin.sizeTag ++
  ["  Replication:  " ++ natural pin.pinnedCount ++ " pinned / " ++
    natural pin.allocations.length ++ " allocated", ""] ++
  pin.peerMap.entries.map fun (id, s) =>
    "  " ++ padRight 16 (((p.nodeOfPeer id).map (·.name)).getD s.peername) ++ " " ++ s.state.name ++
      match s.error with
      | some error => "  " ++ error
      | none => ""

/-- All peers. -/
def peers (ps : List Peer) : List String :=
  [padRight 16 "NAME" ++ " " ++ padRight 54 "PEER ID" ++ " STATUS", Text.replicated 84 '─'] ++
  ps.map (fun p =>
    padRight 16 p.name ++ " " ++ padRight 54 p.peerId ++ " " ++
      match p.error with
      | some error => "offline (" ++ error ++ ")"
      | none => "online") ++
  ["", natural ps.length ++ " peers"]

/-- Row of a table of pins. -/
def pinRow (cid name org replicas : String) : String :=
  padRight 48 cid ++ " " ++ padRight 24 name ++ " " ++ padRight 10 org ++ " " ++ replicas

/-- All pins. -/
def pins (ps : List Pin) : List String :=
  if ps.isEmpty then ["Info: No pins in the cluster"]
  else
    let rule := Text.replicated 92 '-'
    [pinRow "CID" "NAME" "ORG" "PINNED", rule] ++
    ps.map (fun p =>
      pinRow (Text.elide 48 p.cid) (Text.elide 24 (p.name.getD "-")) (p.org.getD "-")
        (natural p.pinnedCount ++ "/" ++ natural p.allocations.length)) ++
    [rule, natural ps.length ++ " pins"]

/-- Pin that would be removed. -/
def removal (pin : Pin) : List String :=
  ["Warning: About to unpin: " ++ pin.cid] ++ nameLine "  Name: " pin.name ++
  ["  Pinned on " ++ natural pin.pinnedCount ++ " peers", "",
    "Use --force to unpin without confirmation."]

/-- Pin that was removed. -/
def removed (cid : String) : List String := [checkMark ++ " Unpinned: " ++ cid]

/-! ## Health -/

/-- Row of the table of nodes. -/
def healthRow (name status pinned remote errors : String) : String :=
  padRight 16 name ++ " " ++ padRight 10 status ++ " " ++ padLeft 8 pinned ++ " " ++
    padLeft 8 remote ++ " " ++ padLeft 8 errors

/-- Health of the cluster. -/
def health (r : Health.Report) : List String :=
  ["Cluster Health", "", "Status: " ++ r.status.name,
    "Peers:  " ++ natural r.online ++ "/" ++ natural r.total ++ " online",
    "Pins:   " ++ natural r.pins, "",
    healthRow "NODE" "STATUS" "PINNED" "REMOTE" "ERRORS"] ++
  r.nodes.flatMap (fun n =>
    healthRow n.name n.status.name (natural n.pinned) (natural n.remote) (natural n.pinError) ::
      nameLine ("  " ++ crossMark ++ " ") n.error) ++
  (if r.pinErrors.isEmpty then [] else
    ["", "Pin errors:"] ++
    r.pinErrors.map (fun e =>
      "  " ++ crossMark ++ " " ++ e.cid ++ " on " ++ e.node ++ ": " ++ e.error) ++
    ["", infoMark ++ " Run 'ccs repair' to recover"]) ++
  r.errors.map fun e => warnMark ++ " " ++ e

/-! ## Passes over all pins -/

/-- Line that stands first for a dry run. -/
def dryRunLine (dryRun : Bool) (what : String) : List String :=
  if dryRun then [infoMark ++ " Dry run: " ++ what] else []

/-- Mark and words for what became of a broken pin. -/
def recovery (b : Repair.BrokenPin) : String × String :=
  if !b.recoverable then (crossMark, "lost")
  else if b.recovered then (checkMark, "recovering")
  else if b.recoverError.isSome then (crossMark, "recover failed")
  else (warnMark, "recoverable")

/-- Result of a repair. -/
def repair (r : Repair.Report) : List String :=
  dryRunLine r.dryRun "no recovery triggered" ++
  r.brokenPins.flatMap (fun b =>
    let (mark, label) := recovery b
    (mark ++ " " ++ b.cid ++ " " ++ label ++ " (errors on: " ++ names b.errorNodes ++ ")") ::
      nameLine "    " b.recoverError) ++
  (if r.brokenPins.isEmpty then [] else [""]) ++
  ["Repair Summary:", "  " ++ natural r.total ++ " pins checked",
    "  " ++ natural r.broken ++ " broken", "  " ++ natural r.recoverable ++ " recoverable"] ++
  (if 0 < r.lost then ["  " ++ natural r.lost ++ " lost"] else []) ++
  if r.dryRun then [] else
    ["  " ++ natural r.recovered ++ " recovered"] ++
    if 0 < r.recoverErrors then ["  " ++ natural r.recoverErrors ++ " recover errors"] else []

/-- Line for a pin whose allocation was changed, or was to be. -/
def rebalanceAction (a : Rebalance.Action) : String :=
  match a.outcome with
  | .failed e => crossMark ++ " " ++ a.cid ++ " " ++ e.message
  | _ => checkMark ++ " " ++ a.cid ++ " [" ++ names a.before ++ "] → [" ++ names a.after ++ "]"

/-- Row of the table of nodes. -/
def balanceRow (node available before after : String) : String :=
  padRight 16 node ++ " " ++ padLeft 12 available ++ " " ++ padLeft 8 before ++ " " ++
    padLeft 8 after

/-- Result of a rebalancing. -/
def rebalance (r : Rebalance.Report) : List String :=
  dryRunLine r.dryRun "planned changes only" ++ r.actions.map rebalanceAction ++
  ["", balanceRow "NODE" "AVAILABLE" "BEFORE" "AFTER"] ++
  r.nodes.map (fun n =>
    balanceRow n.node (Text.byteSize n.available) (natural n.before) (natural n.after)) ++
  ["", "Rebalance Summary:",
    "  replication bounds " ++ natural r.replicationMin ++ ".." ++ natural r.replicationMax,
    "  " ++ r.summary]

/-- Lines for pins that could not be changed. -/
def failures (fs : List Migrate.PinFailure) : List String :=
  fs.map fun f => crossMark ++ " " ++ f.cid ++ ": " ++ f.error

/-- Result of a pass that makes sure of a profile's peers. -/
def ensured (profile : String) (r : Migrate.EnsureReport) : List String :=
  dryRunLine r.dryRun "no pins updated" ++
  ["Required peers for '" ++ profile ++ "': " ++ names r.requiredPeers] ++ failures r.failures ++
  [checkMark ++ " " ++ r.summary]

/-- Result of a pass that fills in tags. -/
def tagged (r : Migrate.TagReport) : List String :=
  dryRunLine r.dryRun "no pins updated" ++ failures r.failures ++ [checkMark ++ " " ++ r.summary]

end PinKeeper.Command.Report
