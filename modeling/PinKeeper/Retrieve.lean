import PinKeeper.Cluster.Interface
import PinKeeper.Policy.Basic

/-!
# Retrieve — fetching content from a node that holds it

The nodes that report the content as pinned are the sources: the profile's primary first, then the
backup, then the others in the order of their peer ids.  `get` tries one after the other until a
download succeeds.
-/

namespace PinKeeper.Retrieve

/-- Place of a node among the sources. -/
def rank (primary backup : Option String) (name : String) : Nat :=
  if some name = primary then 0 else if some name = backup then 1 else 2

/-- Drops an element that repeats the one before it. -/
def dropRepeats : List String → List String
  | [] => []
  | x :: xs =>
    match dropRepeats xs with
    | [] => [x]
    | y :: ys => if x = y then y :: ys else x :: y :: ys

/-- Names of the nodes whose peers report a pin as pinned, in the order of the peer ids. -/
def pinnedNodes (p : Policy) (pin : Pin) : List String :=
  (pin.peerMap.entries.filter fun e => e.2.state == .pinned).filterMap fun e =>
    (p.nodeOfPeer e.1).map (·.name)

/-- Names of the nodes to fetch from, the best first. -/
def sources (p : Policy) (pin : Pin) (profile : Option String) : Except Failure (List String) :=
  let ordered (primary : Option String) : List String :=
    let r := rank primary p.backupNode
    dropRepeats ((pinnedNodes p pin).mergeSort fun a b => r a ≤ r b)
  match profile with
  | none => .ok (ordered none)
  | some name =>
    match p.profile name with
    | some q => .ok (ordered (some q.primary))
    | none => .error (.configuration ("Profile '" ++ name ++ "' not found in config"))

/-- Failure for content that no known node holds. -/
def nobodyHolds (cid : String) : Failure := .validation ("No peers have pinned " ++ cid)

variable {m : Type → Type} [Monad m]

/-- Tries sources until one succeeds; `last` is the failure if none does. -/
def tryEach (cluster : Cluster m) (p : Policy) (cid path : String) :
    (last : Failure) → List String → m (Except Failure Download)
  | last, [] => return .error last
  | _, name :: names => do
    match ← cluster.download (p.hostFor name) cid path with
    | .ok d => return .ok d
    | .error e => tryEach cluster p cid path (.transport e) names

/-- Fetches content to a path. -/
def get (cluster : Cluster m) (p : Policy) (cid : String) (profile : Option String)
    (path : String) : m (Except Failure Download) := do
  match ← cluster.pinStatus cid with
  | .error e => return .error (.transport e)
  | .ok pin =>
    match sources p pin profile with
    | .error e => return .error e
    | .ok names => tryEach cluster p cid path (nobodyHolds cid) names

end PinKeeper.Retrieve
