import PinKeeper.Proofs.Placement.Plan

/-!
# Proofs/Placement/Exact — what a placement says of each peer

A placement is collected from the nodes of its policy in the order of their names.  So of several
nodes with one peer id it has the last one (`find?_known_ofPolicy`, `find?_capacity_ofPolicy`),
while the policy itself answers with the first (`nodeOfPeer_eq_head?`).  Where no two nodes share a
peer id there is one at most, and the two agree.

Space is counted in 64 bits, and what a node holds back may exceed them.  The counter then stops at
a number that no free space exceeds, so nothing is left to allocate, just as in unbounded numbers
(`allocatable_eq_max`).
-/

namespace PinKeeper

/-! ## Nodes with a peer id -/

namespace Policy

variable {p : Policy} {id : String}

/-- Nodes with a peer id, by name. -/
def nodesOfPeer (p : Policy) (id : String) : List Node :=
  p.nodes.values.filter fun n => n.peerId == some id

theorem mem_nodesOfPeer {n : Node} :
    n ∈ p.nodesOfPeer id ↔ n ∈ p.nodes.values ∧ n.peerId = some id := by
  rw [nodesOfPeer, List.mem_filter, beq_iff_eq]

theorem nodeOfPeer_eq_head? : p.nodeOfPeer id = (p.nodesOfPeer id).head? :=
  List.head?_filter.symm

theorem nodesOfPeer_eq_nil_iff : p.nodesOfPeer id = [] ↔ ¬p.Knows id := by
  simp only [List.eq_nil_iff_forall_not_mem, mem_nodesOfPeer, Knows, not_exists]

/-- Where no two nodes share a peer id, a node is the only one with its own. -/
theorem nodesOfPeer_eq_singleton (h : (p.nodes.values.filterMap fun n => n.peerId).Nodup) {n : Node}
    (hn : n ∈ p.nodes.values) (hid : n.peerId = some id) : p.nodesOfPeer id = [n] := by
  have hlength : (p.nodesOfPeer id).length ≤ 1 := by
    rw [nodesOfPeer, ← List.countP_eq_length_filter, ← List.count_filterMap]
    exact List.nodup_iff_count_le_one.1 h id
  have hmem : n ∈ p.nodesOfPeer id := mem_nodesOfPeer.2 ⟨hn, hid⟩
  obtain ⟨n', hn'⟩ := List.length_eq_one_iff.1 (hlength.antisymm (List.length_pos_of_mem hmem))
  rw [hn'] at hmem ⊢
  rw [List.mem_singleton.1 hmem]

end Policy

namespace Placement

/-! ## The last node counts -/

section Collected

variable {p : Policy} {freeSpace : Dict Nat} {id : String}

/-- Of what is collected from the nodes under their peer ids, the last node with an id counts. -/
theorem find?_ofList_peers {α : Type} (f : String → Node → α) (ns : List Node) (id : String) :
    (Dict.ofList ((ns.filterMap fun n => n.peerId.map fun id => (id, n)).map
        fun (id, n) => (id, f id n))).find? id
      = (ns.filter fun n => n.peerId == some id).getLast?.map (f id) := by
  rw [Dict.find?_ofList, ← List.map_reverse, ← List.filterMap_reverse, List.find?_map,
    List.find?_filterMap, List.getLast?_eq_head?_reverse, ← List.filter_reverse, List.head?_filter]
  have hsame (n : Node) : (n.peerId.map fun id => (id, n)).any
      ((fun e : String × α => decide (e.1 = id)) ∘ fun (id, n) => (id, f id n))
        = (n.peerId == some id) := by
    cases n.peerId with
    | none => rfl
    | some id' => exact Bool.eq_iff_iff.2 (by simp)
  simp only [hsame]
  cases hfind : ns.reverse.find? fun n => n.peerId == some id with
  | none => rfl
  | some n =>
    have hid : n.peerId = some id :=
      eq_of_beq (List.find?_some (p := fun n : Node => n.peerId == some id) hfind)
    rw [Option.bind_some, hid]
    rfl

theorem find?_known_ofPolicy : (ofPolicy p freeSpace).known.find? id
    = (p.nodesOfPeer id).getLast?.map (·.name) :=
  find?_ofList_peers (fun _ n => n.name) p.nodes.values id

theorem find?_capacity_ofPolicy : (ofPolicy p freeSpace).capacity.find? id
    = (p.nodesOfPeer id).getLast?.map fun n => allocatable n ((freeSpace.find? id).getD 0) :=
  find?_ofList_peers (fun id n => allocatable n ((freeSpace.find? id).getD 0)) p.nodes.values id

end Collected

/-! ## Space in unbounded numbers -/

/-- **What may be allocated is what is free beyond what is held back, or nothing.** -/
theorem allocatable_eq_max {n : Node} {free : Nat} (h : free ≤ Text.max64) :
    (allocatable n free : Int) = max 0 ((free : Int) - n.reservedGb * 1000000000) := by
  rw [allocatable, Node.reservedBytes, bytesPerGb]
  omega

theorem getD_find?_le {d : Dict Nat} {bound : Nat} (h : ∀ e ∈ d.entries, e.2 ≤ bound) (k : String) :
    (d.find? k).getD 0 ≤ bound := by
  cases hfind : d.find? k with
  | none => exact Nat.zero_le _
  | some v => exact h _ (Dict.find?_eq_some_iff.1 hfind)

/-! ## Each peer by its node -/

/-- **A placement is exact.**  Where no two nodes of the policy share a peer id, and the peers
report free space within 64 bits, the placement knows the peers of the policy and no others.  For
each of them it has the space that its node leaves, in unbounded numbers, where what is not reported
is nothing, and the name of the node, which is the one that the policy finds.  Of any other peer it
has no space and no name, and the policy finds no node. -/
theorem ofPolicy_exact {p : Policy} (hdistinct : (p.nodes.values.filterMap fun n => n.peerId).Nodup)
    {freeSpace : Dict Nat} (hfree : ∀ e ∈ freeSpace.entries, e.2 ≤ Text.max64) :
    let c := ofPolicy p freeSpace
    (∀ id, c.known.contains id = true ↔ ∃ n ∈ p.nodes.values, n.peerId = some id) ∧
      (∀ n ∈ p.nodes.values, ∀ id, n.peerId = some id →
        (c.capacityOf id : Int)
            = max 0 (((freeSpace.find? id).getD 0 : Nat) - (n.reservedGb : Int) * 1000000000) ∧
          p.nodeOfPeer id = some n ∧ c.displayName id = n.name) ∧
      ∀ id, (¬∃ n ∈ p.nodes.values, n.peerId = some id) →
        c.capacityOf id = 0 ∧ c.displayName id = id ∧ p.nodeOfPeer id = none := by
  intro c
  refine ⟨fun id => contains_known_ofPolicy, fun n hn id hid => ?_, fun id hid => ?_⟩
  · have honly : p.nodesOfPeer id = [n] := Policy.nodesOfPeer_eq_singleton hdistinct hn hid
    have hcapacity : c.capacityOf id = allocatable n ((freeSpace.find? id).getD 0) := by
      rw [capacityOf, find?_capacity_ofPolicy, honly, List.getLast?_singleton, Option.map_some,
        Option.getD_some]
    refine ⟨?_, ?_, ?_⟩
    · rw [hcapacity, allocatable_eq_max (getD_find?_le hfree id)]
    · rw [Policy.nodeOfPeer_eq_head?, honly]
      rfl
    · rw [displayName, find?_known_ofPolicy, honly]
      rfl
  · have hnone : p.nodesOfPeer id = [] := Policy.nodesOfPeer_eq_nil_iff.2 hid
    rw [capacityOf, displayName, find?_capacity_ofPolicy, find?_known_ofPolicy,
      Policy.nodeOfPeer_eq_head?, hnone]
    exact ⟨rfl, rfl, rfl⟩

/-- A node holds back more bytes than 64 bits count, and all of its space is free. -/
theorem ofPolicy_exact_sample :
    let n : Node := ⟨"alpha", "alpha", some "A", 18446744074⟩
    let nodes : Dict Node := .ofList [("alpha", n), ("beta", ⟨"beta", "b", none, 0⟩)]
    let p := { Policy.default with nodes }
    let freeSpace : Dict Nat := .ofList [("A", Text.max64), ("X", 7)]
    let c := ofPolicy p freeSpace
    (p.nodes.values.filterMap fun n => n.peerId).Nodup ∧
      (∀ e ∈ freeSpace.entries, e.2 ≤ Text.max64) ∧ n ∈ p.nodes.values ∧ n.peerId = some "A" ∧
      Text.max64 < n.reservedGb * bytesPerGb ∧
      (c.capacityOf "A" : Int)
        = max 0 (((freeSpace.find? "A").getD 0 : Nat) - (n.reservedGb : Int) * 1000000000) ∧
      p.nodeOfPeer "A" = some n ∧ c.displayName "A" = "alpha" ∧
      c.capacityOf "X" = 0 ∧ c.displayName "X" = "X" ∧ p.nodeOfPeer "X" = none := by
  intro n nodes p freeSpace c
  have hdistinct : (p.nodes.values.filterMap fun n => n.peerId).Nodup := by decide
  have hfree : ∀ e ∈ freeSpace.entries, e.2 ≤ Text.max64 := by decide
  have hn : n ∈ p.nodes.values := by decide
  have hother : ¬∃ n ∈ p.nodes.values, n.peerId = some "X" := by decide
  obtain ⟨-, hknown, hunknown⟩ := ofPolicy_exact hdistinct hfree
  obtain ⟨hspace, hnode, hname⟩ := hknown n hn "A" rfl
  obtain ⟨hspace', hname', hnode'⟩ := hunknown "X" hother
  exact ⟨hdistinct, hfree, hn, rfl, by decide, hspace, hnode, hname, hspace', hname', hnode'⟩

end Placement

end PinKeeper
