import PinKeeper.Cluster.Interface
import PinKeeper.Json.Printer
import PinKeeper.Json.Reader
import PinKeeper.Json.Record
import PinKeeper.Placement.Required
import PinKeeper.Text.Blank
import PinKeeper.Text.Decimal
import PinKeeper.Time.Instant
import PinKeeper.Total

/-!
# Upload — adding content on its required peers

`add` uploads a file or a directory with the primary of its profile and the backup as allocations,
asks for the new pin, and judges how far the content has spread (`judge`).  It never fails: what
goes wrong is told by the result.  A result is kept as a manifest, a JSON text that reads back
(`AddResult.ofText?`).
-/

namespace PinKeeper

/-- How an add ended. -/
inductive AddOutcome where
  | success
  /-- Added, but not or not yet on enough peers, or not verified. -/
  | partialSuccess
  | failed
  /-- The policy cannot place the content. -/
  | configError
deriving DecidableEq, Repr, Inhabited

namespace AddOutcome

/-- Exit code of the program. -/
def exitCode : AddOutcome → Nat
  | .success => 0
  | .partialSuccess => 1
  | .failed => 2
  | .configError => 3

/-- Outcome with an exit code. -/
def ofExitCode? (code : Int) : Option AddOutcome :=
  if code = 0 then some .success
  else if code = 1 then some .partialSuccess
  else if code = 2 then some .failed
  else if code = 3 then some .configError
  else none

def name : AddOutcome → String
  | .success => "success"
  | .partialSuccess => "partial"
  | .failed => "failed"
  | .configError => "config_error"

theorem ofExitCode?_exitCode : ∀ o : AddOutcome, ofExitCode? o.exitCode = some o := by
  intro o; cases o <;> rfl

end AddOutcome

/-- File or directory of an add. -/
structure CidEntry where
  path : String
  cid : String
  size : Nat
  isRoot : Bool
  error : Option String
deriving DecidableEq, Repr, Inhabited

/-- True if the entry was stored. -/
def CidEntry.isOk (e : CidEntry) : Bool := e.error.isNone && !e.cid.isEmpty

/-- Result of an add. -/
structure AddResult where
  /-- Identifier of the whole; empty when nothing was added. -/
  rootCid : String
  rootPath : String
  entries : List CidEntry
  allocations : List String
  profile : Option String
  addedAt : Time.Instant
  clusterHost : String
  outcome : AddOutcome
  error : Option String
  /-- Remark on a success. -/
  note : Option String
  /-- Peers that hold the content, once that is verified. -/
  replicaCount : Option Nat
deriving DecidableEq, Repr

namespace AddResult

def isOk (r : AddResult) : Bool := r.outcome = .success

/-- Entry of the whole. -/
def rootEntry (r : AddResult) : Option CidEntry := r.entries.find? fun e => e.cid == r.rootCid

/-- Entries of the parts. -/
def childEntries (r : AddResult) : List CidEntry := r.entries.filter fun e => e.cid != r.rootCid

/-- Bytes of the parts together, in 64 bits. -/
def totalSize (r : AddResult) : Nat := sum64 (r.childEntries.map (·.size))

def summary (r : AddResult) : String :=
  let added := r.outcome.name ++ " " ++ shortCid r.rootCid ++ " (" ++
    Text.natural r.entries.length ++ " entries, " ++
    (match r.replicaCount with
      | some n => Text.natural n
      | none => "unverified") ++ " replicas)"
  match r.outcome with
  | .success | .partialSuccess => added
  | _ => r.outcome.name ++ ": " ++ r.error.getD "unknown error"

end AddResult

/-! ## The manifest -/

namespace CidEntry

def toJson (e : CidEntry) : Json :=
  .object [
    ("path", .text e.path),
    ("cid", .text e.cid),
    ("size", Json.count e.size),
    ("is_root", .bool e.isRoot),
    ("error", Json.optionalText e.error)]

open Json in
def ofJson? (v : Json) : Option CidEntry := do
  match ← slots [["path"], ["cid"], ["size"], ["is_root"], ["error"]] v with
  | [path, cid, size, isRoot, error] =>
    some {
      path := ← required asText path
      cid := ← required asText cid
      size := ← required (asNat Text.max64) size
      isRoot := ← orDefault false asBool isRoot
      error := ← orDefault none (nullable asText) error }
  | _ => none

end CidEntry

namespace AddResult

/-- Result in JSON; the note is left out where there is none. -/
def toJson (r : AddResult) : Json :=
  .object ([
    ("root_cid", .text r.rootCid),
    ("root_path", .text r.rootPath),
    ("entries", .array (r.entries.map (·.toJson))),
    ("allocations", Json.texts r.allocations),
    ("profile", Json.optionalText r.profile),
    ("added_at", .text r.addedAt.text),
    ("cluster_host", .text r.clusterHost),
    ("returncode", Json.count r.outcome.exitCode),
    ("error", Json.optionalText r.error)] ++
    (match r.note with
      | some note => [("note", .text note)]
      | none => []) ++
    [("replica_count", match r.replicaCount with
      | some n => Json.count n
      | none => .null)])

open Json in
/-- Reads an exit code as the outcome. -/
def outcome? (v : Json) : Option AddOutcome :=
  (asInt (-2147483648) 2147483647 v).bind AddOutcome.ofExitCode?

open Json in
def ofJson? (v : Json) : Option AddResult := do
  match ← slots [["root_cid"], ["root_path"], ["entries"], ["allocations"], ["profile"],
      ["added_at"], ["cluster_host"], ["returncode"], ["error"], ["note"], ["replica_count"]] v with
  | [rootCid, rootPath, entries, allocations, profile, addedAt, host, code, error, note, count] =>
    some {
      rootCid := ← required asText rootCid
      rootPath := ← required asText rootPath
      entries := ← required (asList CidEntry.ofJson?) entries
      allocations := ← orDefault [] (asList asText) allocations
      profile := ← orDefault none (nullable asText) profile
      addedAt := ← required (fun v => (asText v).bind Time.relaxed?) addedAt
      clusterHost := ← orDefault "" asText host
      outcome := ← required outcome? code
      error := ← orDefault none (nullable asText) error
      note := ← orDefault none (nullable asText) note
      replicaCount := ← orDefault none (nullable (asNat Text.max64)) count }
  | _ => none

/-- Manifest of a result. -/
def text (r : AddResult) : String := r.toJson.pretty

/-- Reads a manifest. -/
def ofText? (s : String) : Option AddResult := (Json.parse? s).bind ofJson?

end AddResult

namespace Upload

/-! ## The judgement -/

/-- Number of replicas at which an add is a full success. -/
def desiredReplicas : Nat := 3

/-- Name of a required peer in a report: what it is for, and its node. -/
def label (p : Policy) (role id : String) : String :=
  role ++ " (" ++ ((p.nodeOfPeer id).map (·.name)).getD id ++ ")"

/-- Required peers with what they are for. -/
def sides (allocations : List String) : List (String × String) :=
  ["primary", "backup"].zip allocations

/-- True if the required peer reports an error. -/
def hasFailed (pin : Pin) (id : String) : Bool := (pin.stateOf id).any PinState.isError

/-- What a required peer reports as its error. -/
def detail (pin : Pin) (id : String) : String :=
  ((pin.peerMap.find? id).bind (·.error)).getD "pin error"

/-- Judgement on a new pin. -/
structure Judgement where
  outcome : AddOutcome
  error : Option String
  note : Option String
  replicaCount : Option Nat
deriving DecidableEq, Repr

/-- Judges a new pin by what its required peers report and by the number of peers that hold it. -/
def judge (p : Policy) (allocations : List String) (pin : Pin) : Judgement :=
  let failed := (sides allocations).filter fun s => hasFailed pin s.2
  let pending := (sides allocations).filter fun s => pin.stateOf s.2 != some .pinned
  let count := pin.pinnedCount
  if !failed.isEmpty then
    ⟨.failed,
      some ("Pin failed on " ++
        Text.joined "; " (failed.map fun s => label p s.1 s.2 ++ ": " ++ detail pin s.2)),
      none, some 0⟩
  else if !pending.isEmpty then
    ⟨.partialSuccess,
      some ("Replication pending on " ++
        Text.joined ", " (pending.map fun s => label p s.1 s.2)), none, none⟩
  else if count < desiredReplicas then
    ⟨.partialSuccess,
      some ("Only " ++ Text.natural count ++ " replicas pinned, below the desired minimum of " ++
        Text.natural desiredReplicas), none, some count⟩
  else
    ⟨.success, none,
      if count = desiredReplicas then
        some (Text.natural count ++
          " replicas pinned; the cluster may add more up to replication_max")
      else none,
      some count⟩

/-! ## The run -/

/-- What is to be added, and to which node if not the profile's primary. -/
structure Options where
  path : String
  profile : String
  host : Option String
  recursive : Bool
deriving DecidableEq, Repr

/-- Result before anything is done. -/
def start (p : Policy) (o : Options) (time : Time.Instant) : AddResult where
  rootCid := ""
  rootPath := o.path
  entries := []
  allocations := []
  profile := some o.profile
  addedAt := time
  clusterHost := (p.targetHost (some o.profile) o.host).getD ""
  outcome := .failed
  error := none
  note := none
  replicaCount := none

/-- Result with a problem. -/
def fail (r : AddResult) (outcome : AddOutcome) (error : String) : AddResult :=
  { r with outcome := outcome, error := some error }

/-- Request for the files of a path. -/
def request (o : Options) (allocations : List String) (files : List LocalFile) : AddRequest where
  path := o.path
  name := (Path.fileName? o.path).getD o.path
  files := files
  allocations := allocations
  onReceiver := true
  metadata := (Dict.empty.insert orgKey o.profile).insert sizeKey
    (Text.natural (Walk.totalSize files))

/-- Entries of a result: those of the cluster, with the root marked. -/
def entriesOf (rootCid : String) (added : List AddedEntry) : List CidEntry :=
  added.map fun e => ⟨e.name, e.cid, e.size, e.cid == rootCid, none⟩

variable {m : Type → Type} [Monad m]

/-- Completes a result by the status of the new pin. -/
def verify (cluster : Cluster m) (p : Policy) (r : AddResult) : m AddResult := do
  match ← cluster.pinStatus r.rootCid with
  | .ok pin =>
    let j := judge p r.allocations pin
    return { r with
      outcome := j.outcome, error := j.error, note := j.note, replicaCount := j.replicaCount }
  | .error e =>
    return fail r .partialSuccess
      ("Added, but replication could not be verified: " ++ e.message)

/-- Uploads files to a host. -/
def send (connect : String → m (Except ClusterError (Cluster m))) (p : Policy) (o : Options)
    (r : AddResult) (host : String) (files : List LocalFile) : m AddResult := do
  match ← connect host with
  | .error e => return fail r .failed e.message
  | .ok cluster =>
    match ← cluster.add (request o r.allocations files) with
    | .error e => return fail r .failed e.message
    | .ok added =>
      match added.getLast? with
      | none =>
        return fail r .failed "No entries returned from cluster (possible server error)"
      | some root =>
        verify cluster p { r with rootCid := root.cid, entries := entriesOf root.cid added }

/-- Adds content.  `lookup` tells what is at a path, `connect` reaches the cluster at a host. -/
def add (lookup : String → m (Except FileError Entry))
    (connect : String → m (Except ClusterError (Cluster m))) (p : Policy) (o : Options)
    (time : Time.Instant) : m AddResult := do
  let r := start p o time
  match ← lookup o.path with
  | .error _ => return fail r .failed ("Path not found: " ++ o.path)
  | .ok entry =>
    match p.requiredFor o.profile with
    | .error e => return fail r .configError e.message
    | .ok allocations =>
      let r := { r with allocations := allocations }
      match p.targetHost (some o.profile) o.host with
      | none => return fail r .configError "No host specified and no default_node in config"
      | some host =>
        if entry.isDirectory && !o.recursive then
          return fail r .failed (o.path ++ " is a directory; add it recursively")
        else
          match Walk.files o.path entry with
          | .error e => return fail r .failed ("Cannot read " ++ o.path ++ ": " ++ e.message)
          | .ok files => send connect p o r host files

end Upload

end PinKeeper
