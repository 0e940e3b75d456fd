import PinKeeper.Command.Arguments
import PinKeeper.Command.Report
import PinKeeper.Http.Client
import PinKeeper.Retrieve

/-!
# Command/Run — from an invocation to an exit code

A run is a program over a `World`, which stands for the network, the files, the clock and the
environment.  It ends with a page and an exit code, or in `Trouble`.  The exit code of a command is
the severity of its result: nothing to do, changed or partial, attention needed, or the policy at
fault.  Whether the page or the result itself is printed changes nothing else.
-/

namespace PinKeeper.Command

/-- What a run needs from outside. -/
structure World (m : Type → Type) where
  transport : Http.Transport m
  /-- What is at a path. -/
  lookup : String → m (Except FileError Entry)
  /-- Makes a directory and those above it. -/
  makeDirs : String → m (Except FileError Unit)
  now : m Time.Instant
  /-- Waits for a number of milliseconds. -/
  pause : Nat → m Unit
  environment : Environment
  home : Option String

/-! ## How a run ends -/

/-- Page and exit code. -/
structure Ending where
  code : Nat
  page : String
deriving DecidableEq, Repr

/-- Why a command has no result, and what it was doing. -/
inductive Trouble where
  | noHost
  | failure (doing : Option String) (cause : Failure)
  | file (doing : Option String) (cause : FileError)
deriving DecidableEq, Repr

namespace Trouble

/-- Text with what was being done in front of it. -/
def within (doing : Option String) (text : String) : String :=
  match doing with
  | some what => what ++ ": " ++ text
  | none => text

def message : Trouble → String
  | .noHost => "No host specified and no default_node in config (use --host or set default_node)"
  | .failure doing cause => within doing cause.account
  | .file doing cause => within doing cause.message

/-- Exit code where there is no result. -/
def code : Trouble → Nat
  | .failure _ cause => if cause.isConfiguration then 3 else 2
  | _ => 2

end Trouble

/-- Result, or the trouble with getting it. -/
def doing (what : String) (r : Except Failure α) : Except Trouble α :=
  r.mapError fun e => .failure (some what) e

/-- Answer of the cluster, or the trouble with getting it. -/
def asking (what : String) (r : Except ClusterError α) : Except Trouble α :=
  doing what (r.mapError .transport)

/-! ## Commands -/

/-- What all commands on the cluster work with. -/
structure Context where
  policy : Policy
  host : Option String
  json : Bool
  settings : TransportSettings

namespace Context

/-- Ending with a result, as a page or as itself. -/
def ending (c : Context) (code : Nat) (result : Json) (page : List String) : Ending :=
  ⟨code, if c.json then result.pretty ++ "\n" else Report.text page⟩

/-- Access to a host. -/
def client (c : Context) (host : String) : Http.Client :=
  .ofHost host c.policy.auth c.settings

variable {m : Type → Type} [Monad m] (w : World m) (c : Context)

/-- The cluster at a host. -/
def clusterAt (host : String) : Cluster m := (c.client host).cluster w.transport

/-- Runs a command on the cluster at the host that is asked for, or at the default node. -/
def onCluster (command : Cluster m → m (Except Trouble Ending)) : m (Except Trouble Ending) :=
  match c.policy.targetHost none c.host with
  | some host => command (c.clusterAt w host)
  | none => return .error .noHost

/-- Settings of a pass over all pins. -/
def scan (dryRun : Bool) : Scan m :=
  ⟨dryRun, w.pause (ScanSettings.ofEnvironment w.environment).delay⟩

/-- Writes the manifest of an upload, if one is asked for. -/
def writeManifest (manifest : Option String) (r : AddResult) : m (Except Trouble Unit) :=
  match manifest with
  | none => return .ok ()
  | some path => do
    match ← w.transport.write path (.ofText r.text) with
    | .ok () => return .ok ()
    | .error e => return .error (.file (some ("Failed to write manifest to " ++ path)) e)

def add (o : Upload.Options) (manifest : Option String) : m (Except Trouble Ending) := do
  let connect (host : String) : m (Except ClusterError (Cluster m)) :=
    return .ok (c.clusterAt w host)
  let r ← Upload.add w.lookup connect c.policy o (← w.now)
  match ← writeManifest w manifest r with
  | .error e => return .error e
  | .ok () => return .ok (c.ending r.outcome.exitCode r.toJson (Report.added r))

def status (cid : String) : m (Except Trouble Ending) :=
  c.onCluster w fun cluster => do
    return (asking ("Failed to get status of " ++ cid) (← cluster.pinStatus cid)).map fun pin =>
      c.ending 0 pin.toJson (Report.pin c.policy pin)

def peers : m (Except Trouble Ending) :=
  c.onCluster w fun cluster => do
    return (asking "Failed to list peers" (← cluster.peers)).map fun ps =>
      c.ending 0 (.array (ps.map Peer.toJson)) (Report.peers ps)

def pins : m (Except Trouble Ending) :=
  c.onCluster w fun cluster => do
    return (asking "Failed to list pins" (← cluster.pins)).map fun ps =>
      c.ending 0 (.array (ps.map Pin.toJson)) (Report.pins ps)

def health : m (Except Trouble Ending) :=
  c.onCluster w fun cluster => do
    let r := asking "Cluster unreachable" (← Health.check cluster)
    let time ← w.now
    return r.map fun r => c.ending r.severity (r.toJson time) (Report.health r)

def repair (dryRun : Bool) : m (Except Trouble Ending) :=
  c.onCluster w fun cluster => do
    let r := asking "Repair scan failed" (← Repair.repair cluster c.policy (scan w dryRun))
    let time ← w.now
    return r.map fun r => c.ending r.severity (r.toJson time) (Report.repair r)

def rebalance (dryRun : Bool) : m (Except Trouble Ending) :=
  c.onCluster w fun cluster => do
    let r := doing "Rebalance failed"
      (← Rebalance.rebalance cluster c.policy (scan w dryRun) fun _ => pure ())
    let time ← w.now
    return r.map fun r => c.ending r.severity (r.toJson time) (Report.rebalance r)

def ensurePins (profile : String) (dryRun : Bool) : m (Except Trouble Ending) :=
  c.onCluster w fun cluster => do
    let r := doing "ensure-pins failed"
      (← Migrate.ensurePins cluster c.policy profile (scan w dryRun))
    let time ← w.now
    return r.map fun r => c.ending r.severity (r.toJson time) (Report.ensured profile r)

def tagPins (profile : String) (dryRun : Bool) : m (Except Trouble Ending) :=
  c.onCluster w fun cluster => do
    let r := doing "tag-pins failed" (← Migrate.tagPins cluster c.policy profile (scan w dryRun))
    let time ← w.now
    return r.map fun r => c.ending r.severity (r.toJson time) (Report.tagged r)

/-- Makes the directory that a path is in. -/
def makeParent (path : String) : m (Except FileError Unit) :=
  match Path.parent? path with
  | some above => if above.isEmpty then return .ok () else w.makeDirs above
  | none => return .ok ()

/-- Result of a download. -/
def downloadJson (cid : String) (d : Download) : Json :=
  .object [("bytes", .count d.bytes), ("cid", .text cid), ("is_directory", .bool d.isDirectory),
    ("path", .text d.path)]

def get (cid : String) (profile path : Option String) : m (Except Trouble Ending) :=
  c.onCluster w fun cluster => do
    let path := path.getD cid
    match ← makeParent w path with
    | .error e => return .error (.file none e)
    | .ok () =>
      let r := doing ("Failed to download " ++ cid)
        (← Retrieve.get cluster c.policy cid profile path)
      return r.map fun d =>
        ⟨0, if c.json then (downloadJson cid d).compact ++ "\n"
          else Report.text (Report.downloaded cid d)⟩

def remove (cid : String) (force : Bool) : m (Except Trouble Ending) :=
  c.onCluster w fun cluster => do
    match asking ("Failed to check " ++ cid) (← cluster.pinStatus cid) with
    | .error e => return .error e
    | .ok pin =>
      if force then
        return (asking "Failed to unpin" (← cluster.unpin cid)).map fun _ =>
          ⟨0, Report.text (Report.removed cid)⟩
      else return .ok ⟨0, Report.text (Report.removal pin)⟩

end Context

variable {m : Type → Type} [Monad m] (w : World m)

/-- Policy at a path. -/
def loadPolicy (path : String) : m (Except Failure Policy) := do
  return PolicyFile.ofEntry path (← w.lookup path)

/-- Shows the policy file, where it is, or what is wrong with it. -/
def viewPolicy (path : String) : PolicyView → m (Except Trouble Ending)
  | .location => return .ok ⟨0, Report.text [path]⟩
  | .contents => do
    match ← loadPolicy w path with
    | .error e => return .error (.failure none e)
    | .ok p => return .ok ⟨0, Report.text (Report.policy path p)⟩
  | .problems => do
    match ← loadPolicy w path with
    | .error e => return .error (.failure none e)
    | .ok p =>
      return .ok ⟨if p.problems.isEmpty then 0 else 3, Report.text (Report.problems path p)⟩

/-- Runs a command on the cluster. -/
def act (c : Context) : Action → m (Except Trouble Ending)
  | .add path profile recursive manifest => c.add w ⟨path, profile, c.host, recursive⟩ manifest
  | .status cid => c.status w cid
  | .peers => c.peers w
  | .pins => c.pins w
  | .health => c.health w
  | .repair dryRun => c.repair w dryRun
  | .rebalance dryRun => c.rebalance w dryRun
  | .ensurePins profile dryRun => c.ensurePins w profile dryRun
  | .tagPins profile dryRun => c.tagPins w profile dryRun
  | .get cid profile path => c.get w cid profile path
  | .remove cid force => c.remove w cid force

/-- Does what is asked for. -/
def run (i : Invocation) : m (Except Trouble Ending) :=
  match PolicyFile.path w.environment w.home i.policyPath with
  | .error e => return .error (.failure none e)
  | .ok path =>
    match i.task with
    | .view policy => viewPolicy w path policy
    | .act action => do
      match doing ("Failed to load policy from " ++ path) (← loadPolicy w path) with
      | .error e => return .error e
      | .ok p => act w ⟨p, i.host, i.json, .ofEnvironment w.environment⟩ action

/-! ## The program -/

/-- What a run leaves: its exit code and what it prints. -/
structure Exit where
  code : Nat
  output : String
  /-- What goes to the error output, log lines aside: the usage, or why the run failed. -/
  errors : String
deriving DecidableEq, Repr

/-- Version of the program. -/
def version : String := "ccs 0.1.0"

/-- How the program is called. -/
def usage : String := Report.text [
  "Usage: ccs [--config-file PATH] [--host HOST] [--json] [--debug] COMMAND", "",
  "  add PATH -p PROFILE [--no-recursive] [--output-json PATH]",
  "  status CID",
  "  peers",
  "  ls",
  "  health",
  "  repair [--dry-run]",
  "  rebalance [--dry-run]",
  "  ensure-pins -p PROFILE [--dry-run]",
  "  tag-pins -p PROFILE [--dry-run]",
  "  get CID [-p PROFILE] [-o PATH]",
  "  rm CID [--force]",
  "  config [show | path | validate]"]

/-- Exit of a command line that asks for nothing to be done. -/
def Exit.ofStop : Stop → Exit
  | .usage => ⟨2, "", usage⟩
  | .help => ⟨0, usage, ""⟩
  | .version => ⟨0, Report.text [version], ""⟩

/-- Exit of a run. -/
def Exit.ofResult : Except Trouble Ending → Exit
  | .ok e => ⟨e.code, e.page, ""⟩
  | .error t => ⟨t.code, "", Report.text [Report.crossMark ++ " " ++ t.message]⟩

/-- True if the bodies of answers are to be noted on the error output. -/
def wantsNotes (env : Environment) (args : List String) : Bool :=
  match Invocation.read env args with
  | .ok i => i.debug || (env.lookup "CCS_DEBUG").any fun v => v == "1" || v == "true"
  | .error _ => false

/-- Runs the program with arguments. -/
def program (args : List String) : m Exit := do
  match Invocation.read w.environment args with
  | .error why => return .ofStop why
  | .ok i => return .ofResult (← run w i)

end PinKeeper.Command
