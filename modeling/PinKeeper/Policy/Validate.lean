import PinKeeper.Policy.Basic

/-!
# Policy/Validate — what is wrong with a policy

A `Problem` makes the policy unusable for some operation; a `Concern` is worth knowing.  Both are
listed in a fixed order: the shared nodes, the profiles by name, the bounds, the nodes by name and
the credentials.
-/

namespace PinKeeper

/-- Fault of a policy. -/
inductive Problem where
  | noBackup
  | unknownBackup (node : String)
  | unknownDefault (node : String)
  | unknownPrimary (profile node : String)
  | minBelowOne
  | maxBelowMin (max min : Nat)
deriving DecidableEq, Repr

def Problem.message : Problem → String
  | .noBackup => "backup_node is not set"
  | .unknownBackup node => "backup_node '" ++ node ++ "' not found in nodes"
  | .unknownDefault node => "default_node '" ++ node ++ "' not found in nodes"
  | .unknownPrimary profile node =>
    "profile '" ++ profile ++ "' references unknown node '" ++ node ++ "'"
  | .minBelowOne => "replication_min must be >= 1"
  | .maxBelowMin max min =>
    "replication_max must be >= replication_min (" ++ Text.natural max ++ " < " ++
      Text.natural min ++ ")"

/-- Oddity of a policy that works. -/
inductive Concern where
  | minAboveNodes (min nodes : Nat)
  | noPeerId (node : String)
  | noAuth
deriving DecidableEq, Repr

def Concern.message : Concern → String
  | .minAboveNodes min nodes =>
    "replication_min (" ++ Text.natural min ++ ") exceeds node count (" ++ Text.natural nodes ++ ")"
  | .noPeerId node => "node '" ++ node ++ "' has no peer_id (run ansible to populate)"
  | .noAuth => "no cluster auth configured"

namespace Policy

/-- Faults of the policy. -/
def problems (p : Policy) : List Problem :=
  (match p.backupNode with
    | none => [.noBackup]
    | some name => if p.nodes.contains name then [] else [.unknownBackup name]) ++
  (match p.defaultNode with
    | some name => if p.nodes.contains name then [] else [.unknownDefault name]
    | none => []) ++
  (p.profiles.entries.filterMap fun (name, q) =>
    if p.nodes.contains q.primary then none else some (.unknownPrimary name q.primary)) ++
  (if p.replicationMin < 1 then [.minBelowOne] else []) ++
  (if p.replicationMax < p.replicationMin then [.maxBelowMin p.replicationMax p.replicationMin]
    else [])

/-- Oddities of the policy. -/
def concerns (p : Policy) : List Concern :=
  (if p.nodes.size < p.replicationMin then [.minAboveNodes p.replicationMin p.nodes.size]
    else []) ++
  (p.nodes.entries.filterMap fun (name, n) =>
    if n.peerId.isNone then some (.noPeerId name) else none) ++
  (if p.auth.isNone then [.noAuth] else [])

end Policy

end PinKeeper
