import PinKeeper.Outline
import PinKeeper.Policy.Basic
import PinKeeper.Source

/-!
# Policy/Document — a policy as its file says it

A `PolicyDocument` is what stands in a policy file, whatever the format: sections with optional
members, and nodes given in full or by a bare host.  `policy` fills in what is left out, `ofPolicy`
says a policy in full, `read` takes a document from any source and `outline` gives it to any writer.
-/

namespace PinKeeper

/-- Section with the credentials. -/
structure AuthSection where
  user : Option String
  password : Option String
deriving DecidableEq, Repr

/-- Entry of a node: its host alone, or its fields. -/
inductive NodeSection where
  | bare (host : String)
  | full (host peerId : Option String) (reservedGb : Nat)
deriving DecidableEq, Repr

/-- Content of a policy file; a profile's section is the name of its primary node. -/
structure PolicyDocument where
  cluster : Option AuthSection
  backupNode : Option String
  defaultNode : Option String
  replicationMin : Nat
  replicationMax : Nat
  profiles : Dict String
  nodes : Dict NodeSection
deriving DecidableEq, Repr

/-- Credentials of a section; without a user or a password there are none. -/
def AuthSection.credentials (s : AuthSection) : Option Credentials :=
  match s.user, s.password with
  | some user, some password =>
    if user.isEmpty || password.isEmpty then none else some ⟨user, password⟩
  | _, _ => none

/-- Node of a section: its name is the default of its host, and an empty peer id is none. -/
def NodeSection.node (name : String) : NodeSection → Node
  | .bare host => ⟨name, host, none, 0⟩
  | .full host peerId reservedGb =>
    ⟨name, host.getD name, peerId.filter fun p => !p.isEmpty, reservedGb⟩

namespace PolicyDocument

/-- Policy that a document describes. -/
def policy (d : PolicyDocument) : Policy where
  auth := d.cluster.bind (·.credentials)
  backupNode := d.backupNode
  defaultNode := d.defaultNode
  replicationMin := d.replicationMin
  replicationMax := d.replicationMax
  profiles := d.profiles.mapEntries fun name primary => ⟨name, primary⟩
  nodes := d.nodes.mapEntries NodeSection.node

/-- Document that describes a policy. -/
def ofPolicy (p : Policy) : PolicyDocument where
  cluster := p.auth.map fun a => ⟨some a.user, some a.password⟩
  backupNode := p.backupNode
  defaultNode := p.defaultNode
  replicationMin := p.replicationMin
  replicationMax := p.replicationMax
  profiles := p.profiles.mapEntries fun _ q => q.primary
  nodes := p.nodes.mapEntries fun _ n => .full (some n.host) n.peerId n.reservedGb

/-! ## Reading -/

/-- Name of a field: one of the names in order, or its place among them. -/
def fieldName? (names : List String) : Loose → Option String
  | .text s => some s
  | .natural n => some (names[n]?.getD "")
  | _ => none

/-- Text or null. -/
def looseText? : Option Loose → Option (Option String)
  | none => some none
  | some .null => some none
  | some (.text s) => some (some s)
  | _ => none

/-- Number that may be left out. -/
def looseNatural? : Option Loose → Option Nat
  | none => some 0
  | some (.natural n) => some n
  | _ => none

/-- Entry of a node in either form. -/
def nodeSection? : Loose → Option NodeSection
  | .text host => some (.bare host)
  | .group members => do
    let names := ["host", "peer_id", "reserved_min_gb"]
    let named ← members.mapM fun (k, v) => (fieldName? names k).map fun name => (name, v)
    match ← names.mapM (Source.slot? named) with
    | [host, peerId, reserved] =>
      some (.full (← looseText? host) (← looseText? peerId) (← looseNatural? reserved))
    | _ => none
  | _ => none

variable {m : Type → Type} [Monad m] {V : Type}

/-- Reads the section with the credentials. -/
def readCluster (s : Source m V) (v : Option V) : m (Option AuthSection) := do
  match v with
  | none => return none
  | some v =>
    match ← s.optional v with
    | none => return none
    | some v =>
      match ← s.fields ["basic_auth_user", "basic_auth_password"] v with
      | [user, password] =>
        return some ⟨← s.optionalText user, ← s.optionalText password⟩
      | _ => s.refuse

/-- Reads the section of a profile. -/
def readProfile (s : Source m V) (v : V) : m String := do
  match ← s.fields ["primary"] v with
  | [some primary] => s.text primary
  | _ => s.refuse

/-- Reads the entry of a node. -/
def readNode (s : Source m V) (v : V) : m NodeSection := do
  match nodeSection? (← s.loose v) with
  | some n => return n
  | none => s.refuse

/-- Reads a document. -/
def read (s : Source m V) (v : V) : m PolicyDocument := do
  match ← s.fields ["cluster", "backup_node", "default_node", "replication_min",
      "replication_max", "profiles", "nodes"] v with
  | [cluster, backup, default, least, most, profiles, nodes] =>
    let profiles ← s.entriesOr profiles
    let nodes ← s.entriesOr nodes
    return {
      cluster := ← readCluster s cluster
      backupNode := ← s.optionalText backup
      defaultNode := ← s.optionalText default
      replicationMin := ← s.naturalOr Text.max32 Policy.defaultReplicationMin least
      replicationMax := ← s.naturalOr Text.max32 Policy.defaultReplicationMax most
      profiles := Dict.ofList (← profiles.mapM fun (k, v) => do return (k, ← readProfile s v))
      nodes := Dict.ofList (← nodes.mapM fun (k, v) => do return (k, ← readNode s v)) }
  | _ => s.refuse

/-! ## Writing -/

/-- Members of a node's entry; a reserve of zero is left out. -/
def nodeOutline : NodeSection → Outline
  | .bare host => .text host
  | .full host peerId reservedGb =>
    .group (Outline.optional "host" host ++ Outline.optional "peer_id" peerId ++
      if reservedGb = 0 then [] else [("reserved_min_gb", .number reservedGb)])

/-- Document as named members; what is empty is left out. -/
def outline (d : PolicyDocument) : List (String × Outline) :=
  (match d.cluster with
    | some c => [("cluster", .group (Outline.optional "basic_auth_user" c.user ++
        Outline.optional "basic_auth_password" c.password))]
    | none => []) ++
  Outline.optional "backup_node" d.backupNode ++
  Outline.optional "default_node" d.defaultNode ++
  [("replication_min", .number d.replicationMin), ("replication_max", .number d.replicationMax)] ++
  Outline.groupUnlessEmpty "profiles"
    (d.profiles.entries.map fun (k, primary) => (k, .group [("primary", .text primary)])) ++
  Outline.groupUnlessEmpty "nodes" (d.nodes.entries.map fun (k, n) => (k, nodeOutline n))

end PolicyDocument

end PinKeeper
