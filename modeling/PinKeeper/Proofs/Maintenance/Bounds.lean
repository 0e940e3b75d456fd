import Mathlib.Data.Finset.Card
import PinKeeper.Proofs.Maintenance.Rebalance

/-!
# Proofs/Maintenance/Bounds — after a rebalancing a pin is within the bounds or could not be written

What a policy asks of the allocation of a pin is asked of the set of its peers (`WithinBounds`): a
stored allocation may name a peer twice, and a pin whose plan changes nothing is not written again.
Such a pin has the planned peers already (`isNoop_planFor_iff`), so it meets the same bounds as one
that has just been written (`withinBounds_of_target`).
-/

namespace PinKeeper.Rebalance

open Memory

/-- The peers of a pin are as the policy asks: known ones, all the required ones, not more than the
greatest number unless so many are required, and as many as the least number unless no other known
peer has space. -/
structure WithinBounds (p : Policy) (freeSpace : Dict Nat) (pin : Pin) : Prop where
  known : ∀ id ∈ pin.allocations, p.Knows id
  required : p.requiredPeers pin ⊆ pin.allocations
  atMost : pin.allocations.toFinset.card ≤ max p.replicationMax (p.requiredPeers pin).length
  enough : p.replicationMin ≤ pin.allocations.toFinset.card ∨
    ∀ id, p.Knows id → id ∉ pin.allocations → (Placement.ofPolicy p freeSpace).capacityOf id = 0

section Planned

variable {p : Policy} {freeSpace : Dict Nat} {pin pin' : Pin}

theorem card_toFinset_of_target
    (h : ∀ id, id ∈ pin'.allocations ↔ id ∈ target p freeSpace pin) :
    pin'.allocations.toFinset.card = (target p freeSpace pin).length := by
  have hset : pin'.allocations.toFinset = (target p freeSpace pin).toFinset := by
    ext id
    rw [List.mem_toFinset, List.mem_toFinset, h]
  rw [hset, List.toFinset_card_of_nodup nodup_target]

/-- **A pin with the planned peers is within the bounds**, in whatever order and however often it
names them. -/
theorem withinBounds_of_target (hbounds : p.replicationMin ≤ p.replicationMax)
    (horg : pin'.org = pin.org)
    (h : ∀ id, id ∈ pin'.allocations ↔ id ∈ target p freeSpace pin) :
    WithinBounds p freeSpace pin' where
  known id hid := knows_of_mem_target ((h id).1 hid)
  required id hid := by
    rw [Policy.requiredPeers_congr horg] at hid
    exact (h id).2 (requiredPeers_subset_target hid)
  atMost := by
    rw [card_toFinset_of_target h, Policy.requiredPeers_congr horg]
    exact length_target_le
  enough := by
    rw [card_toFinset_of_target h]
    refine (target_enough hbounds).imp id fun hspace id hid hnot => ?_
    exact hspace id hid fun hmem => hnot ((h id).2 hmem)

end Planned

/-! ## The run -/

section Run

variable {s t : Memory} {p : Policy} {c : Placement} {pin : Pin}

/-- Only the allocation of a pin changes. -/
theorem rebalanced_eq (f : Faults) (dryRun : Bool) :
    rebalanced f p c dryRun pin
      = { pin with allocations := (rebalanced f p c dryRun pin).allocations } := by
  rcases rebalanced_eq_or f p c dryRun pin with heq | ⟨-, heq⟩
  · rw [heq]
  · rw [heq]

theorem org_rebalanced (f : Faults) (dryRun : Bool) :
    (rebalanced f p c dryRun pin).org = pin.org := by
  rw [rebalanced_eq]
  rfl

theorem rebalanced_of_fails {f : Faults} {dryRun : Bool} (h : (f.pin pin.cid).isSome = true) :
    rebalanced f p c dryRun pin = pin := by
  rw [rebalanced]
  cases hr : request? p c dryRun pin with
  | none => rfl
  | some r =>
    rw [asked, Option.elim_some, served, cid_of_mem_request? hr, if_pos h]

/-- **A pin that could be written where it had to be has the planned peers.** -/
theorem mem_allocations_rebalanced {f : Faults} {freeSpace : Dict Nat}
    (h : ∀ r ∈ request? p (.ofPolicy p freeSpace) false pin, f.pin pin.cid = none) (id : String) :
    id ∈ (rebalanced f p (.ofPolicy p freeSpace) false pin).allocations
      ↔ id ∈ target p freeSpace pin := by
  by_cases hnoop : (planFor p (.ofPolicy p freeSpace) pin).isNoop = true
  · rw [rebalanced, request?_of_isNoop hnoop]
    exact isNoop_planFor_iff.1 hnoop id
  · have hr := request?_of_not_isNoop hnoop
    rw [rebalanced_of_no_fault hr (h _ hr)]
    rfl

end Run

/-- **After a rebalancing every pin is within the bounds, or its request failed and it is as it
was.**  Nothing but allocations changes. -/
theorem rebalance_withinBounds (host : String) (p : Policy) (s : Memory)
    (hmin : 1 ≤ p.replicationMin) (hmax : p.replicationMin ≤ p.replicationMax)
    (hs : s.DistinctCids) (hspace : s.faults.freeSpace = none) (hpins : s.faults.pins = none) :
    ∃ report t, (rebalance (cluster host) p (.plain false) fun _ => pure ()).run s
        = (.ok report, t) ∧
      List.Forall₂ (fun before after =>
        after = { before with allocations := after.allocations } ∧
        (Refused s t before.cid → after = before) ∧
        (¬Refused s t before.cid → WithinBounds p s.freeSpace after)) s.pins t.pins := by
  refine ⟨_, _, run_of_possible false host hs ⟨boundsValid_iff.2 ⟨hmin, hmax⟩, hspace, hpins⟩, ?_⟩
  rw [pins_moved, List.forall₂_map_right_iff, List.forall₂_same]
  intro pin hpin
  refine ⟨rebalanced_eq s.faults false, ?_, fun hnot => ?_⟩
  · rintro ⟨r, -, -, hfails⟩
    exact rebalanced_of_fails hfails
  · exact withinBounds_of_target hmax (org_rebalanced s.faults false)
      (mem_allocations_rebalanced (fault_eq_none_of_not_refused hpin hnot))

theorem rebalance_withinBounds_sample :
    let s := { Sample.memory with faults := Sample.refusing "few" }
    s.DistinctCids ∧ s.faults.freeSpace = none ∧ s.faults.pins = none ∧
      ∃ report t, (rebalance (cluster "alpha") Sample.policy (.plain false) fun _ => pure ()).run s
          = (.ok report, t) ∧
        List.Forall₂ (fun before after =>
          after = { before with allocations := after.allocations } ∧
          (Refused s t before.cid → after = before) ∧
          (¬Refused s t before.cid → WithinBounds Sample.policy s.freeSpace after)) s.pins t.pins :=
  ⟨by decide, rfl, rfl,
    rebalance_withinBounds "alpha" Sample.policy _ (by decide) (by decide) (by decide) rfl rfl⟩

end PinKeeper.Rebalance
