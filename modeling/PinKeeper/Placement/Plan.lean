import PinKeeper.Placement.Required

/-!
# Placement/Plan — the allocation that a pin should have

A `Placement` is what decisions are made from: the peers the policy knows with the space that may be
allocated on each, and the bounds of the number of replicas.  `plan` takes the allocation that a pin
has and the peers that it must have.  Unknown peers go, required ones come; then, below the least
number of replicas, the peers with the most space are added, and above the greatest number the ones
with the least space are dropped, never a required one.
-/

namespace PinKeeper

/-- Peers that may be allocated to, and the bounds of the number of replicas. -/
structure Placement where
  /-- Names of the nodes by their peer ids. -/
  known : Dict String
  /-- Space that may be allocated, by peer id. -/
  capacity : Dict Nat
  replicationMin : Nat
  replicationMax : Nat
deriving Repr, Inhabited

namespace Placement

/-- Space of a node that may be allocated, of the free space it reports. -/
def allocatable (n : Node) (free : Nat) : Nat := free - n.reservedBytes

/-- Placement by a policy and the free space that the peers report; an unreported one has none. -/
def ofPolicy (p : Policy) (freeSpace : Dict Nat) : Placement :=
  let peers := p.nodes.values.filterMap fun n => n.peerId.map fun id => (id, n)
  { known := Dict.ofList (peers.map fun (id, n) => (id, n.name))
    capacity := Dict.ofList
      (peers.map fun (id, n) => (id, allocatable n ((freeSpace.find? id).getD 0)))
    replicationMin := p.replicationMin
    replicationMax := p.replicationMax }

variable (c : Placement)

/-- Space that may be allocated on a peer. -/
def capacityOf (id : String) : Nat := (c.capacity.find? id).getD 0

/-- Name of the node with a peer id, or the id itself. -/
def displayName (id : String) : String := (c.known.find? id).getD id

/-- Order by space, the most first; equal ones by peer id. -/
def roomier (a b : String) : Bool :=
  if c.capacityOf a = c.capacityOf b then decide (¬b < a)
  else decide (c.capacityOf b < c.capacityOf a)

/-- Order by space, the least first; equal ones by peer id. -/
def tighter (a b : String) : Bool :=
  if c.capacityOf a = c.capacityOf b then decide (¬b < a)
  else decide (c.capacityOf a < c.capacityOf b)

/-- Peers that may still be added to an allocation, the one with the most space first. -/
def candidates (allocation : List String) : List String :=
  (c.known.keys.filter fun id => !allocation.contains id && 0 < c.capacityOf id).mergeSort c.roomier

/-- Adds candidates up to the least number of replicas. -/
def fill (allocation : List String) : List String :=
  allocation ++ (c.candidates allocation).take (c.replicationMin - allocation.length)

/-- Peers that exceed the greatest number of replicas: of those that are not required, the ones with
the least space. -/
def excess (required allocation : List String) : List String :=
  ((allocation.filter fun id => !required.contains id).mergeSort c.tighter).take
    (allocation.length - c.replicationMax)

/-- Drops peers down to the greatest number of replicas. -/
def trim (required allocation : List String) : List String :=
  let dropped := c.excess required allocation
  allocation.filter fun id => !dropped.contains id

end Placement

/-- Each element once, in the order of first occurrence. -/
def distinct (xs : List String) : List String := xs.foldl Policy.addNew []

/-- Change of the allocation of a pin. -/
structure Plan where
  /-- Known peers of the allocation that the pin has. -/
  current : List String
  /-- Allocation that the pin should have. -/
  allocation : List String
  added : List String
  /-- Peers that are dropped, the unknown ones last. -/
  removed : List String
  /-- Unknown peers of the allocation that the pin has. -/
  orphaned : List String
deriving DecidableEq, Repr, Inhabited

namespace Plan

/-- True if there is nothing to change. -/
def isNoop (p : Plan) : Bool := p.added.isEmpty && p.removed.isEmpty

/-- Plan for the allocation that a pin has and the peers that it must have. -/
def make (c : Placement) (allocations required : List String) : Plan :=
  let current := distinct (allocations.filter c.known.contains)
  let orphaned := distinct (allocations.filter fun id => !c.known.contains id)
  let allocation := c.trim required (c.fill (required.foldl Policy.addNew current))
  { current := current
    allocation := allocation
    added := allocation.filter fun id => !current.contains id
    removed := (current.filter fun id => !allocation.contains id) ++ orphaned
    orphaned := orphaned }

end Plan

end PinKeeper
