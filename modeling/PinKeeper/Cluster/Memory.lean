import PinKeeper.Cluster.Interface

/-!
# Cluster/Memory — a cluster kept in memory

A `Memory` holds the pins and the answers of a cluster, says which calls fail (`Faults`), and
records every call, also one that fails.  A call that fails changes nothing.
-/

namespace PinKeeper

/-- Call to a cluster. -/
inductive Call where
  | connect (host : String)
  | peers
  | pins
  | pinStatus (cid : String)
  | add (host : String) (request : AddRequest)
  | pin (request : PinRequest)
  | unpin (cid : String)
  | recover (cid : String)
  | freeSpace
  | dagSize (cid : String)
  | download (host cid path : String)

/-- Which calls fail: as a whole, by the identifier, or by the host of a download. -/
structure Faults where
  connect : Option ClusterError
  peers : Option ClusterError
  pins : Option ClusterError
  freeSpace : Option ClusterError
  add : Option ClusterError
  pinStatus : String → Option ClusterError
  pin : String → Option ClusterError
  unpin : String → Option ClusterError
  recover : String → Option ClusterError
  dagSize : String → Option ClusterError
  download : String → Option ClusterError

/-- No call fails. -/
def Faults.none : Faults where
  connect := .none
  peers := .none
  pins := .none
  freeSpace := .none
  add := .none
  pinStatus _ := .none
  pin _ := .none
  unpin _ := .none
  recover _ := .none
  dagSize _ := .none
  download _ := .none

/-- State of a cluster in memory. -/
structure Memory where
  peers : List Peer
  pins : List Pin
  freeSpace : Dict Nat
  dagSizes : Dict Nat
  /-- Entries that answer every add. -/
  added : List AddedEntry
  /-- A recovery succeeds at once. -/
  healOnRecover : Bool
  faults : Faults
  /-- Calls so far, in order. -/
  calls : List Call

namespace Memory

def empty : Memory := ⟨[], [], ∅, ∅, [], false, Faults.none, []⟩

/-! ## How the pins change -/

/-- Takes the fields of a request over into a pin. -/
def update (r : PinRequest) (p : Pin) : Pin :=
  { p with
    name := r.name
    allocations := r.allocations
    metadata := r.metadata
    replicationMin := r.replicationMin
    replicationMax := r.replicationMax }

/-- Pin made by a request. -/
def fresh (r : PinRequest) : Pin :=
  ⟨r.cid, r.name, r.allocations, r.metadata, r.replicationMin, r.replicationMax, ∅, none⟩

/-- Applies a request to the first pin with its identifier, or adds a pin. -/
def upsert (r : PinRequest) : List Pin → List Pin
  | [] => [fresh r]
  | p :: ps => if p.cid = r.cid then update r p :: ps else p :: upsert r ps

/-- Report of a peer after a recovery that succeeded. -/
def healed (s : PeerStatus) : PeerStatus :=
  if s.state.isError then { s with state := .pinned, error := none } else s

/-- Heals the reports of the pins with an identifier. -/
def heal (cid : String) (ps : List Pin) : List Pin :=
  ps.map fun p =>
    if p.cid = cid then { p with peerMap := p.peerMap.mapEntries fun _ s => healed s } else p

/-! ## Operations -/

/-- Records a call. -/
def record (c : Call) : StateM Memory Unit :=
  modify fun s => { s with calls := s.calls ++ [c] }

/-- Answer of a call that fails where the faults say so. -/
def barring (fault : Faults → Option ClusterError)
    (answer : StateM Memory (Except ClusterError α)) : StateM Memory (Except ClusterError α) := do
  match fault (← get).faults with
  | some e => return .error e
  | none => answer

/-- Answer that changes the pins. -/
def changing (f : List Pin → List Pin) : StateM Memory (Except ClusterError Unit) := do
  modify fun s => { s with pins := f s.pins }
  return .ok ()

/-- The cluster, with the name of its host. -/
def cluster (host : String) : Cluster (StateM Memory) where
  host := host
  peers := do
    record .peers
    barring (·.peers) do return .ok (← get).peers
  pins := do
    record .pins
    barring (·.pins) do return .ok (← get).pins
  pinStatus cid := do
    record (.pinStatus cid)
    barring (·.pinStatus cid) do
      match (← get).pins.find? (·.cid == cid) with
      | some p => return .ok p
      | none => return .error (.api 404 ("pin " ++ cid ++ " not found"))
  add r := do
    record (.add host r)
    barring (·.add) do return .ok (← get).added
  pin r := do
    record (.pin r)
    barring (·.pin r.cid) (changing (upsert r))
  unpin cid := do
    record (.unpin cid)
    barring (·.unpin cid) (changing fun ps => ps.filter fun p => p.cid != cid)
  recover cid := do
    record (.recover cid)
    barring (·.recover cid) do
      if (← get).healOnRecover then changing (heal cid) else return .ok ()
  freeSpace := do
    record .freeSpace
    barring (·.freeSpace) do return .ok (← get).freeSpace
  dagSize cid := do
    record (.dagSize cid)
    barring (·.dagSize cid) do
      match (← get).dagSizes.find? cid with
      | some n => return .ok n
      | none => return .error (.api 504 "gateway timeout")
  download host cid path := do
    record (.download host cid path)
    barring (·.download host) do return .ok ⟨path, 42, false⟩

/-- Connects to a host. -/
def connect (host : String) : StateM Memory (Except ClusterError (Cluster (StateM Memory))) := do
  record (.connect host)
  barring (·.connect) do return .ok (cluster host)

end Memory

end PinKeeper
