import PinKeeper.Dict
import PinKeeper.Pin.State
import PinKeeper.Text.Column
import PinKeeper.Time.Instant

/-!
# Pin/Basic — pins, peers and added entries

A pin is content that the cluster keeps: its identifier, the peers it is allocated to, its metadata
and what each peer reports.  Two metadata keys have a meaning here, `org` for the owning profile and
`size` for the size of the pinned tree; an empty tag counts as no tag.
-/

namespace PinKeeper

/-- Metadata key of the owning profile. -/
def orgKey : String := "org"

/-- Metadata key of the size of the pinned tree. -/
def sizeKey : String := "size"

/-- Report of one peer about a pin. -/
structure PeerStatus where
  peername : String
  state : PinState
  error : Option String
deriving DecidableEq, Repr, Inhabited

/-- Content that the cluster keeps, and what the peers report about it. -/
structure Pin where
  cid : String
  name : Option String
  allocations : List String
  metadata : Dict String
  replicationMin : Option Int
  replicationMax : Option Int
  peerMap : Dict PeerStatus
  created : Option Time.Instant
deriving DecidableEq, Repr, Inhabited

/-- First characters of a content identifier. -/
def shortCid (cid : String) : String := Text.firstChars 16 cid

/-- Drops an empty text. -/
def nonEmpty? : Option String → Option String
  | some s => if s.isEmpty then none else some s
  | none => none

namespace Pin

/-- Reports of the peers that hold the content, in the order of their ids. -/
def holders (p : Pin) : List PeerStatus := p.peerMap.values.filter fun s => s.state == .pinned

/-- Number of peers that hold the content. -/
def pinnedCount (p : Pin) : Nat := p.holders.length

/-- Names of the peers that hold the content. -/
def pinnedPeers (p : Pin) : List String := p.holders.map (·.peername)

/-- State that a peer reports. -/
def stateOf (p : Pin) (peer : String) : Option PinState := (p.peerMap.find? peer).map (·.state)

/-- True if there are allocations and every allocated peer holds the content. -/
def isFullyPinned (p : Pin) : Bool :=
  !p.allocations.isEmpty && p.allocations.all fun peer => p.stateOf peer == some .pinned

/-- Owning profile, if the tag is set. -/
def org (p : Pin) : Option String := nonEmpty? (p.metadata.find? orgKey)

/-- Size tag, if it is set. -/
def sizeTag (p : Pin) : Option String := nonEmpty? (p.metadata.find? sizeKey)

end Pin

/-- Member of the cluster; one that reports an error is offline. -/
structure Peer where
  name : String
  peerId : String
  addresses : List String
  error : Option String
deriving DecidableEq, Repr, Inhabited

def Peer.isOnline (p : Peer) : Bool := p.error.isNone

/-- File or directory that the cluster stored in the course of an add. -/
structure AddedEntry where
  name : String
  cid : String
  size : Nat
deriving DecidableEq, Repr, Inhabited

end PinKeeper
