import PinKeeper.Proofs.Maintenance.Pass

/-!
# Proofs/Maintenance/History — required peers are never lost

In a history, runs of the four passes follow each other in any order, dry or not, and before each of
them the cluster may change its answers and the calls that fail.

What is kept over a history is kept by each pass for each pin (`Keeps`).  Only a rebalancing takes
peers away, and never those that the pin's owner requires, for these are among the peers that the
pin should have; and the owner, once set, is not replaced.
-/

namespace PinKeeper

open Memory Rebalance Migrate Repair

/-- What the cluster answers, and which calls fail. -/
structure Circumstances where
  faults : Faults
  freeSpace : Dict Nat
  dagSizes : Dict Nat
  healOnRecover : Bool

/-- The pins of a memory in other circumstances. -/
def Memory.amid (s : Memory) (c : Circumstances) : Memory :=
  { s with
    faults := c.faults
    freeSpace := c.freeSpace
    dagSizes := c.dagSizes
    healOnRecover := c.healOnRecover }

/-- Run of a pass in some circumstances. -/
structure Run where
  pass : Pass
  dryRun : Bool
  circumstances : Circumstances

/-- Memory after a run. -/
def Run.after (host : String) (p : Policy) (s : Memory) (r : Run) : Memory :=
  r.pass.after host p r.dryRun (s.amid r.circumstances)

/-- A pin is still the pin that it was, and if its owner required peers that it had, then these are
still its owner and its peers. -/
structure Keeps (profile : String) (required : List String) (before after : Pin) : Prop where
  cid : after.cid = before.cid
  name : after.name = before.name
  replicationMin : after.replicationMin = before.replicationMin
  replicationMax : after.replicationMax = before.replicationMax
  owned : before.org = some profile → required ⊆ before.allocations →
    after.org = some profile ∧ required ⊆ after.allocations

namespace Keeps

variable {profile : String} {required : List String}

theorem refl (pin : Pin) : Keeps profile required pin pin :=
  ⟨rfl, rfl, rfl, rfl, fun horg hsubset => ⟨horg, hsubset⟩⟩

theorem trans {pin₁ pin₂ pin₃ : Pin} (h : Keeps profile required pin₁ pin₂)
    (h' : Keeps profile required pin₂ pin₃) : Keeps profile required pin₁ pin₃ where
  cid := h'.cid.trans h.cid
  name := h'.name.trans h.name
  replicationMin := h'.replicationMin.trans h.replicationMin
  replicationMax := h'.replicationMax.trans h.replicationMax
  owned horg hsubset := by
    obtain ⟨horg', hsubset'⟩ := h.owned horg hsubset
    exact h'.owned horg' hsubset'

end Keeps

/-! ## A pass -/

section Step

variable {p : Policy} {profile : String} {required : List String}
  (hrequired : p.requiredFor profile = .ok required) (f : Faults) (dryRun : Bool) (pin : Pin)

include hrequired in
/-- The peers that a pin should have include those that its owner requires. -/
theorem keeps_rebalanced (freeSpace : Dict Nat) : Keeps profile required pin
    (rebalanced f p (.ofPolicy p freeSpace) dryRun pin) := by
  rcases rebalanced_eq_or f p (.ofPolicy p freeSpace) dryRun pin with heq | ⟨-, heq⟩
  · rw [heq]
    exact .refl pin
  · rw [heq]
    refine ⟨rfl, rfl, rfl, rfl, fun horg _ => ⟨horg, fun id hid => ?_⟩⟩
    have hkept : id ∈ p.requiredPeers pin :=
      Policy.mem_requiredPeers_of_requiredFor hrequired horg hid
    exact requiredPeers_subset_target hkept

theorem keeps_ensured (added : List String) :
    Keeps profile required pin (ensured f dryRun added pin) := by
  rcases ensured_eq_or f dryRun added pin with heq | heq
  · rw [heq]
    exact .refl pin
  · rw [heq]
    refine ⟨rfl, rfl, rfl, rfl, fun horg hsubset => ⟨horg, fun id hid => ?_⟩⟩
    exact mem_mergeAllocations.2 (.inl (hsubset hid))

theorem keeps_taggedBy (sizes : Dict Nat) (owner : String) :
    Keeps profile required pin (taggedBy f sizes owner dryRun pin) := by
  have howner (horg : pin.org = some profile) :
      (taggedBy f sizes owner dryRun pin).org = some profile := org_taggedBy horg
  rcases taggedBy_eq_or f sizes owner dryRun pin with heq | heq
  · rw [heq]
    exact .refl pin
  · rw [heq] at howner ⊢
    exact ⟨rfl, rfl, rfl, rfl, fun horg hsubset => ⟨howner horg, hsubset⟩⟩

theorem keeps_healedPin (healOnRecover : Bool) :
    Keeps profile required pin (healedPin f healOnRecover pin) := by
  rw [healedPin]
  split
  · exact .refl pin
  · exact ⟨rfl, rfl, rfl, rfl, fun horg hsubset => ⟨horg, hsubset⟩⟩

include hrequired in
/-- **What a pass makes of a pin is that pin with the peers that its owner requires.** -/
theorem keeps_effect (s : Memory) : ∀ pass : Pass,
    Keeps profile required pin (pass.effect p dryRun s pin)
  | .rebalance => by
    rw [Pass.effect]
    split
    · exact keeps_rebalanced hrequired s.faults dryRun pin s.freeSpace
    · exact .refl pin
  | .ensurePins _ => by
    rw [Pass.effect]
    split
    · next added _ _ => exact keeps_ensured s.faults dryRun pin added
    · exact .refl pin
  | .tagPins owner => by
    rw [Pass.effect]
    split
    · exact keeps_taggedBy s.faults dryRun pin s.dagSizes owner
    · exact .refl pin
  | .repair => by
    rw [Pass.effect]
    split
    · rcases repaired_eq_or s.faults s.healOnRecover p dryRun pin with heq | heq
      · rw [heq]
        exact .refl pin
      · rw [heq]
        exact keeps_healedPin s.faults pin s.healOnRecover
    · exact .refl pin

end Step

/-! ## A history -/

section History

variable (host : String) {p : Policy} {profile : String} {required : List String} {s : Memory}

theorem Run.pins_after (p : Policy) (hs : s.DistinctCids) (r : Run) : (r.after host p s).pins
    = s.pins.map fun pin => r.pass.effect p r.dryRun (s.amid r.circumstances) pin := by
  have hamid : (s.amid r.circumstances).DistinctCids := hs
  exact Pass.pins_after host p r.dryRun hamid r.pass

theorem Run.distinctCids_after (p : Policy) (hs : s.DistinctCids) (r : Run) :
    (r.after host p s).DistinctCids := by
  have hamid : (s.amid r.circumstances).DistinctCids := hs
  exact Pass.distinctCids_after host p r.dryRun hamid r.pass

/-- **Required peers are never lost.**  Whatever runs follow each other, whatever the cluster
answers and whichever calls fail, each pin is at its place with its identifier, its name and its
factors, and with the peers that the profile which owns it requires if it had them. -/
theorem runs_keep_required (hrequired : p.requiredFor profile = .ok required)
    (hs : s.DistinctCids) (runs : List Run) :
    List.Forall₂ (Keeps profile required) s.pins (runs.foldl (Run.after host p) s).pins := by
  induction runs generalizing s with
  | nil => exact List.forall₂_same.2 fun pin _ => .refl pin
  | cons r runs ih =>
    have hrest := ih (Run.distinctCids_after host p hs r)
    rw [Run.pins_after host p hs r, List.forall₂_map_left_iff] at hrest
    exact hrest.imp fun pin _ h =>
      (keeps_effect hrequired r.dryRun pin (s.amid r.circumstances) r.pass).trans h

end History

theorem runs_keep_required_sample :
    let calm : Circumstances := ⟨.none, Sample.memory.freeSpace, Sample.memory.dagSizes, true⟩
    let troubled : Circumstances := ⟨Sample.refusing "many", ∅, ∅, false⟩
    let runs : List Run := [⟨.rebalance, false, troubled⟩, ⟨.tagPins "acme", false, calm⟩,
      ⟨.repair, false, troubled⟩, ⟨.ensurePins "acme", true, calm⟩, ⟨.rebalance, false, calm⟩]
    Sample.policy.requiredFor "acme" = .ok ["A", "B"] ∧ Sample.memory.DistinctCids ∧
      List.Forall₂ (Keeps "acme" ["A", "B"]) Sample.memory.pins
        (runs.foldl (Run.after "alpha" Sample.policy) Sample.memory).pins :=
  ⟨by decide, by decide, runs_keep_required "alpha" (by decide) (by decide) _⟩

end PinKeeper
