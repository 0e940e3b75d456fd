import PinKeeper.Error
import PinKeeper.Pin.Basic
import PinKeeper.Policy.Basic

/-!
# Placement/Required — the peers that must hold content

Content of a profile belongs on the profile's primary node and on the backup node.  Two questions
are asked.  Which peers are they, or what does the policy lack (`requiredFor`)?  And which peers may
a given pin not lose (`requiredPeers`)?  The second goes by the pin's owner tag and passes over what
the policy cannot answer.
-/

namespace PinKeeper

namespace Policy

/-- Peer ids of a profile's primary node and of the backup node, in this order. -/
def requiredFor (p : Policy) (profile : String) : Except AllocationError (List String) :=
  match p.profile profile with
  | none => .error (.unknownProfile profile)
  | some q =>
    match p.node q.primary with
    | none => .error (.unknownPrimary q.primary)
    | some primary =>
      match primary.peerId with
      | none => .error (.primaryWithoutPeerId primary.name)
      | some primaryId =>
        match p.backupNode with
        | none => .error .noBackup
        | some name =>
          match p.node name with
          | none => .error (.unknownBackup name)
          | some backup =>
            match backup.peerId with
            | none => .error (.backupWithoutPeerId backup.name)
            | some backupId => .ok [primaryId, backupId]

/-- Adds an element at the end of a list, unless it is there. -/
def addNew (xs : List String) (x : String) : List String := if xs.contains x then xs else xs ++ [x]

/-- Peer id of the backup node, if the policy has one. -/
def backupPeer (p : Policy) : Option String := p.backup.bind (·.peerId)

/-- Peer id of a profile's primary node, if the policy has one. -/
def primaryPeer (p : Policy) (profile : String) : Option String :=
  (p.primaryFor profile).bind (·.peerId)

/-- Peers that a pin must not lose: the backup, and the primary of the profile that owns it. -/
def requiredPeers (p : Policy) (pin : Pin) : List String :=
  let primary := (pin.org.bind p.primaryPeer).toList
  primary.foldl addNew p.backupPeer.toList

/-- Host that requests go to: of the node that is asked for, else of the profile's primary, else of
the default node. -/
def targetHost (p : Policy) (profile override : Option String) : Option String :=
  let name := match override with
    | some name => some name
    | none =>
      match profile.bind p.profile with
      | some q => some q.primary
      | none => p.defaultNode
  name.map p.hostFor

end Policy

end PinKeeper
