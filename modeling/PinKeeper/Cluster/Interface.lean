import PinKeeper.Error
import PinKeeper.Files.Walk
import PinKeeper.Pin.Basic

/-!
# Cluster/Interface — what the cluster can be asked

The operations of a cluster in any monad: a run over a recorded cluster, a scripted one or a real
one is the same program with another `Cluster`.  A pin request takes everything that it does not
change from the pin it was made from.
-/

namespace PinKeeper

/-- Content to add to the cluster. -/
structure AddRequest where
  path : String
  name : String
  files : List LocalFile
  allocations : List String
  /-- Also allocates to the peer that takes the request. -/
  onReceiver : Bool
  metadata : Dict String

/-- Pin as it should be; asking twice changes nothing. -/
structure PinRequest where
  cid : String
  name : Option String
  allocations : List String
  replicationMin : Option Int
  replicationMax : Option Int
  metadata : Dict String
deriving DecidableEq, Repr, Inhabited

/-- Request that changes nothing of a pin. -/
def PinRequest.ofPin (p : Pin) : PinRequest :=
  ⟨p.cid, p.name, p.allocations, p.replicationMin, p.replicationMax, p.metadata⟩

/-- What a download wrote; a directory comes as an archive. -/
structure Download where
  path : String
  bytes : Nat
  isDirectory : Bool
deriving DecidableEq, Repr, Inhabited

/-- Operations of a cluster. -/
structure Cluster (m : Type → Type) where
  host : String
  peers : m (Except ClusterError (List Peer))
  pins : m (Except ClusterError (List Pin))
  pinStatus : String → m (Except ClusterError Pin)
  /-- Adds content; the entries come in the order of the cluster, the root last. -/
  add : AddRequest → m (Except ClusterError (List AddedEntry))
  pin : PinRequest → m (Except ClusterError Unit)
  unpin : String → m (Except ClusterError Unit)
  recover : String → m (Except ClusterError Unit)
  /-- Free bytes by peer id. -/
  freeSpace : m (Except ClusterError (Dict Nat))
  /-- Bytes of all that hangs below an identifier. -/
  dagSize : String → m (Except ClusterError Nat)
  /-- Fetches content from the gateway of a host to a path. -/
  download : (host cid path : String) → m (Except ClusterError Download)

end PinKeeper
