import PinKeeper.Health
import PinKeeper.Proofs.Answers
import PinKeeper.Proofs.Maintenance.DryRun

/-!
# Proofs/Health/Agreement — health and repair find the same pins broken

A health report looks the peers up among those that the cluster lists, a repair among the nodes of
the policy, and either may know peers that the other does not.  But a look-up only gives a peer its
name.  Which reports about a pin count is decided by their state alone, so for each pin there are as
many records in the one report as failed nodes in the other (`length_recordsOf`), and a pin has a
record exactly if it is broken (`classify_eq_none_iff`).

A repair goes on to ask for recoveries.  These change what is said of a recovery and nothing else of
a broken pin (`answers_recoverAll`), so the agreement does not depend on how the cluster takes them.
-/

namespace PinKeeper

open Repair

/-! ## A pin -/

section Pin

variable {p : Policy} {pin : Pin}

/-- A pin has at least one record. -/
def Health.hasRecords (peers : List Peer) (pin : Pin) : Bool :=
  !(recordsOf (byId peers) pin).isEmpty

variable (p pin) in
/-- A pin has as many records as it has failed nodes, whatever the peers are called. -/
theorem Health.length_recordsOf (listed : Dict Peer) :
    (recordsOf listed pin).length = (nodesWith p pin PinState.isError).length := by
  rw [recordsOf, nodesWith, List.length_map, List.length_map]

/-- A pin is sound exactly if it has no record. -/
theorem Repair.classify_eq_none_iff (peers : List Peer) :
    classify p pin = none ↔ Health.hasRecords peers pin = false := by
  rw [classify_eq_none_iff_nodesWith, Health.hasRecords, Bool.not_eq_false',
    List.isEmpty_iff_length_eq_zero, Health.length_recordsOf p, List.length_eq_zero_iff]

theorem Repair.of_mem_classify {b : BrokenPin} (h : b ∈ classify p pin) :
    b.cid = pin.cid ∧ b.name = pin.name ∧ b.errorNodes = nodesWith p pin PinState.isError := by
  rw [eq_of_mem_classify h]
  exact ⟨rfl, rfl, rfl⟩

/-- What is read off the broken pins can be read off the pins with records. -/
theorem Repair.map_classify (peers : List Peer) {α : Type} {g : BrokenPin → α} {g' : Pin → α}
    (hg : ∀ pin, ∀ b ∈ classify p pin, g b = g' pin) (pins : List Pin) :
    (pins.filterMap (classify p)).map g = (pins.filter (Health.hasRecords peers)).map g' := by
  have hrecords : ∀ pin, (classify p pin).any (fun _ => true) = Health.hasRecords peers pin := by
    intro pin
    cases hb : classify p pin with
    | none => exact ((classify_eq_none_iff peers).1 hb).symm
    | some b =>
      symm
      by_contra h
      rw [(classify_eq_none_iff peers).2 (Bool.eq_false_iff.2 h)] at hb
      cases hb
  have hread := map_filter_classify p (fun _ => true) hg pins
  rwa [List.filter_true, List.filter_congr fun pin _ => hrecords pin] at hread

end Pin

/-! ## The broken pins of a repair -/

section Repair

variable {σ : Type} (cluster : Cluster (StateM σ)) (p : Policy) (scan : Scan (StateM σ))

/-- A recovery changes what is said of the recovery only. -/
theorem Repair.answers_recover (b : BrokenPin) :
    Answers (fun b' => b'.unrecovered = b.unrecovered) (recover cluster scan b) := by
  rw [recover]
  split
  · exact .pure rfl
  · refine .andThen fun answer => .andThen fun _ => ?_
    cases answer <;> exact .pure rfl

theorem Repair.answers_recoverAll : ∀ bs : List BrokenPin,
    Answers (fun bs' => bs'.map (·.unrecovered) = bs.map (·.unrecovered))
      (recoverAll cluster scan bs)
  | [] => .pure rfl
  | b :: bs => by
    refine (answers_recover cluster scan b).bind fun b' hb => ?_
    refine (answers_recoverAll bs).bind fun bs' hbs => .pure ?_
    rw [List.map_cons, List.map_cons, hb, hbs]

variable {cluster} in
/-- A repair that got a list of pins reports on them: its broken pins are those of the list, but for
their recovery. -/
theorem Repair.answer_of_listed {s : σ} {pins : List Pin}
    (hpins : (cluster.pins.run s).1 = .ok pins) :
    ∃ broken : List BrokenPin, broken.map (·.unrecovered) = pins.filterMap (classify p) ∧
      ((repair cluster p scan).run s).1 = .ok (Report.ofBroken pins.length scan.dryRun broken) := by
  have hbroken := answers_recoverAll cluster scan (pins.filterMap (classify p))
    (cluster.pins.run s).2
  rw [map_unrecovered_classify] at hbroken
  have hlisted : cluster.pins.run s = (.ok pins, (cluster.pins.run s).2) := Prod.ext hpins rfl
  refine ⟨_, hbroken, ?_⟩
  rw [repair, run_bind_of_run hlisted]
  rfl

/-- A repair has nothing to report exactly if no pin is broken. -/
theorem Repair.Report.severity_eq_zero_iff (total : Nat) (dryRun : Bool) (bs : List BrokenPin) :
    (ofBroken total dryRun bs).severity = 0 ↔ bs = [] := by
  have hlost : (bs.filter fun b => !b.recoverable).length ≤ bs.length := List.length_filter_le ..
  rw [severity, ofBroken, severityOf, ← List.length_eq_zero_iff]
  simp only [decide_eq_true_eq]
  split
  · omega
  · split <;> omega

end Repair

/-! ## The two reports -/

namespace Health

/-- A health report and a repair agree on the pins they were made from. -/
structure Agree (peers : List Peer) (pins : List Pin) (health : Report)
    (repair : Repair.Report) : Prop where
  /-- The broken pins are the pins with records, in the same order. -/
  broken : repair.brokenPins.map (fun b => (b.cid, b.name))
    = (pins.filter (hasRecords peers)).map fun pin => (pin.cid, pin.name)
  /-- Each of them has as many failed nodes as it has records. -/
  each : repair.brokenPins.map (·.errorNodes.length)
    = (pins.filter (hasRecords peers)).map fun pin => (recordsOf (byId peers) pin).length
  /-- So there are as many failed nodes in all as there are records. -/
  total : health.pinErrors.length = sumOf (repair.brokenPins.map (·.errorNodes.length))
  /-- There is no record exactly if the repair has nothing to report. -/
  severity : health.pinErrors = [] ↔ repair.severity = 0

/-- The records of all pins are those of the pins that have some. -/
theorem length_pinErrors (peers : List Peer) : ∀ pins : List Pin,
    (aggregate peers pins []).pinErrors.length = sumOf
      ((pins.filter (hasRecords peers)).map fun pin => (recordsOf (byId peers) pin).length)
  | [] => rfl
  | pin :: pins => by
    have ih := length_pinErrors peers pins
    simp only [aggregate] at ih ⊢
    rw [List.flatMap_cons, List.length_append, ih, List.filter_cons]
    split
    · rw [List.map_cons, sumOf]
    · next h =>
      rw [hasRecords, Bool.not_eq_true, Bool.not_eq_false', List.isEmpty_iff] at h
      rw [h, List.length_nil, Nat.zero_add]

/-- There is no record exactly if no pin has one. -/
theorem pinErrors_eq_nil_iff (peers : List Peer) (pins : List Pin) :
    (aggregate peers pins []).pinErrors = [] ↔ pins.filter (hasRecords peers) = [] := by
  rw [aggregate, List.flatMap_eq_nil_iff, List.filter_eq_nil_iff]
  simp only [hasRecords, Bool.not_eq_true, Bool.not_eq_false', List.isEmpty_iff]

variable {σ : Type}

/-- **Health and repair agree on what is broken.**  Let a repair, dry or not, get a list of pins
from a cluster that otherwise does as it likes.  Then it reports, and whatever peers a health report
on the same pins knows, the two agree. -/
theorem health_agrees_with_repair (cluster : Cluster (StateM σ)) (p : Policy)
    (scan : Scan (StateM σ)) (s : σ) (peers : List Peer) (pins : List Pin)
    (hpins : (cluster.pins.run s).1 = .ok pins) :
    ∃ report, ((repair cluster p scan).run s).1 = .ok report ∧
      Agree peers pins (aggregate peers pins []) report := by
  obtain ⟨broken, hbroken, hanswer⟩ := answer_of_listed p scan hpins
  have hread {α : Type} {g : BrokenPin → α} (h : ∀ b, g b.unrecovered = g b) :
      broken.map g = (pins.filterMap (classify p)).map g := by
    rw [← hbroken, List.map_map]
    exact List.map_congr_left fun b _ => (h b).symm
  have hcids : broken.map (fun b => (b.cid, b.name))
      = (pins.filter (hasRecords peers)).map fun pin => (pin.cid, pin.name) := by
    rw [hread fun _ => rfl, map_classify peers]
    intro pin b hb
    obtain ⟨hcid, hname, -⟩ := of_mem_classify hb
    rw [hcid, hname]
  have heach : broken.map (·.errorNodes.length)
      = (pins.filter (hasRecords peers)).map fun pin => (recordsOf (byId peers) pin).length := by
    rw [hread fun _ => rfl, map_classify peers]
    intro pin b hb
    rw [(of_mem_classify hb).2.2, length_recordsOf p]
  refine ⟨_, hanswer, hcids, heach, ?_, ?_⟩
  · rw [length_pinErrors, ← heach]
    rfl
  · rw [pinErrors_eq_nil_iff, Report.severity_eq_zero_iff]
    have hempty := congrArg List.length hcids
    rw [List.length_map, List.length_map] at hempty
    rw [← List.length_eq_zero_iff, ← List.length_eq_zero_iff, hempty]

theorem health_agrees_with_repair_sample :
    (((Memory.cluster "alpha").pins.run Sample.memory).1 = .ok Sample.memory.pins) ∧
      ∃ report,
        ((repair (Memory.cluster "alpha") Sample.policy (.plain false)).run Sample.memory).1
          = .ok report ∧
        Agree [] Sample.memory.pins (aggregate [] Sample.memory.pins []) report :=
  ⟨by decide, health_agrees_with_repair _ Sample.policy (.plain false) Sample.memory []
    Sample.memory.pins (by decide)⟩

end Health

end PinKeeper
