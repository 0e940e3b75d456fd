import PinKeeper.Dict
import PinKeeper.Text.Decimal
import PinKeeper.Text.Shown

/-!
# Policy/Basic — where content is to be kept

The policy names the nodes of the cluster, binds each profile to its primary node, and sets the
backup node that all profiles share and the bounds of the number of replicas.  Nodes are known by
name in the policy and by peer id in the cluster; a node without a peer id cannot be allocated to.
-/

namespace PinKeeper

/-- Node of the cluster; `reservedGb` is the space that is held back from allocation, in decimal
gigabytes. -/
structure Node where
  name : String
  host : String
  peerId : Option String
  reservedGb : Nat
deriving DecidableEq, Repr, Inhabited

/-- Bytes of a decimal gigabyte. -/
def bytesPerGb : Nat := 1000000000

/-- Space that is held back, in bytes, as far as a counter of 64 bits goes. -/
def Node.reservedBytes (n : Node) : Nat := min (n.reservedGb * bytesPerGb) Text.max64

/-- Owner of content, bound to its primary node. -/
structure Profile where
  name : String
  primary : String
deriving DecidableEq, Repr, Inhabited

/-- Name and password for the cluster's interface. -/
structure Credentials where
  user : String
  password : String
deriving DecidableEq, Repr, Inhabited

/-- Description that says nothing about the password. -/
def Credentials.redacted (c : Credentials) : String :=
  "ClusterAuth \x7b user: " ++ Text.shown c.user ++ ", password: \"<redacted>\" \x7d"

/-- Placement policy. -/
structure Policy where
  auth : Option Credentials
  backupNode : Option String
  defaultNode : Option String
  replicationMin : Nat
  replicationMax : Nat
  profiles : Dict Profile
  nodes : Dict Node
deriving DecidableEq, Repr

namespace Policy

/-- Least number of replicas where the policy does not say. -/
def defaultReplicationMin : Nat := 3

/-- Greatest number of replicas where the policy does not say. -/
def defaultReplicationMax : Nat := 5

/-- Policy that says nothing. -/
def default : Policy :=
  ⟨none, none, none, defaultReplicationMin, defaultReplicationMax, ∅, ∅⟩

instance : Inhabited Policy := ⟨default⟩

/-- Adds a node under its name. -/
def addNode (p : Policy) (n : Node) : Policy := { p with nodes := p.nodes.insert n.name n }

/-- Binds a profile to its primary node. -/
def addProfile (p : Policy) (name primary : String) : Policy :=
  { p with profiles := p.profiles.insert name ⟨name, primary⟩ }

def node (p : Policy) (name : String) : Option Node := p.nodes.find? name

def profile (p : Policy) (name : String) : Option Profile := p.profiles.find? name

/-- Primary node of a profile. -/
def primaryFor (p : Policy) (profile : String) : Option Node :=
  (p.profile profile).bind fun q => p.node q.primary

/-- Node that backs up every profile. -/
def backup (p : Policy) : Option Node := p.backupNode.bind p.node

/-- Peer id of a node. -/
def peerIdOf (p : Policy) (name : String) : Option String := (p.node name).bind (·.peerId)

/-- First node, by name, with a peer id. -/
def nodeOfPeer (p : Policy) (peer : String) : Option Node :=
  p.nodes.values.find? fun n => n.peerId == some peer

/-- Host of a node; a name that is no node's is itself a host. -/
def hostFor (p : Policy) (name : String) : String := ((p.node name).map (·.host)).getD name

end Policy

end PinKeeper
