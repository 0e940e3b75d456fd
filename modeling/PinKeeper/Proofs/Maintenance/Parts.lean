import PinKeeper.Maintenance.Migrate
import PinKeeper.Maintenance.Rebalance
import PinKeeper.Maintenance.Repair
import PinKeeper.Proofs.Compositional

/-!
# Proofs/Maintenance/Parts — the operations that a pass is made of

A pass asks for the pins, a rebalancing for the free space before and an addition of tags for sizes
on the way, and only a pass that is not dry asks for a change and pauses.  So each pass has every
compositional property that these operations have.  Nothing is said of the cluster: it may answer
as it likes, and change its answers.
-/

namespace PinKeeper.Compositional

variable {m : Type → Type} [Monad m] {P : (α : Type) → m α → Prop} (h : Compositional P)
  {cluster : Cluster m} {scan : Scan m} (hpause : scan.dryRun = false → P _ scan.pause)

include h hpause

/-! ## Passes that ask for pins -/

section Pinning

variable (hpin : scan.dryRun = false → ∀ r, P _ (cluster.pin r))

include hpin

section Rebalance

open PinKeeper.Rebalance

variable {p : Policy} {c : Placement} {note : Progress → m Unit}

theorem settle (pin : Pin) : P _ (settle cluster p c scan pin) := by
  rw [Rebalance.settle]
  by_cases hnoop : (planFor p c pin).isNoop = true
  · rw [if_pos hnoop]
    exact h.pure _
  rw [if_neg hnoop]
  by_cases hdry : scan.dryRun = true
  · rw [if_pos hdry]
    exact h.pure _
  · rw [if_neg hdry]
    refine h.bind (hpin (Bool.eq_false_iff.2 hdry) _) fun answer => ?_
    refine h.bind (hpause (Bool.eq_false_iff.2 hdry)) fun _ => ?_
    cases answer <;> exact h.pure _

theorem settleAll (hnote : ∀ x, P _ (note x)) (total : Nat) : ∀ (done : Nat) (pins : List Pin),
    P _ (settleAll cluster p c scan note total done pins)
  | _, [] => h.pure _
  | done, pin :: pins =>
    h.bind (settle h hpause hpin pin) fun _ =>
      h.bind (hnote _) fun _ =>
        h.bind (settleAll hnote total (done + 1) pins) fun _ => h.pure _

theorem rebalance (hspace : P _ cluster.freeSpace) (hpins : P _ cluster.pins)
    (hnote : ∀ x, P _ (note x)) : P _ (rebalance cluster p scan note) := by
  rw [Rebalance.rebalance]
  split
  · exact h.pure _
  · refine h.bind hspace fun answer => ?_
    cases answer with
    | error e => exact h.pure _
    | ok freeSpace =>
      refine h.bind hpins fun answer => ?_
      cases answer with
      | error e => exact h.pure _
      | ok pins =>
        exact h.bind (settleAll h hpause hpin hnote _ _ _) fun _ => h.pure _

end Rebalance

section Migrate

open PinKeeper.Migrate

variable {p : Policy} {profile : String}

theorem sendPin (r : PinRequest) : P _ (send cluster scan r) := by
  rw [Migrate.send]
  by_cases hdry : scan.dryRun = true
  · rw [if_pos hdry]
    exact h.pure _
  · rw [if_neg hdry]
    refine h.bind (hpin (Bool.eq_false_iff.2 hdry) _) fun answer => ?_
    refine h.bind (hpause (Bool.eq_false_iff.2 hdry)) fun _ => ?_
    cases answer <;> exact h.pure _

omit hpause hpin in
theorem forEach {step : Pin → m Outcome} (hstep : ∀ pin, P _ (step pin)) :
    ∀ pins : List Pin, P _ (forEach step pins)
  | [] => h.pure _
  | pin :: pins => h.bind (hstep pin) fun _ => h.bind (forEach hstep pins) fun _ => h.pure _

theorem ensurePins (hpins : P _ cluster.pins) : P _ (ensurePins cluster p profile scan) := by
  have hstep (required : List String) (pin : Pin) : P _ (ensurePin cluster scan required pin) := by
    rw [ensurePin]
    split
    · exact h.pure _
    · exact sendPin h hpause hpin _
  rw [Migrate.ensurePins]
  split
  · exact h.pure _
  · refine h.bind hpins fun answer => ?_
    cases answer with
    | error e => exact h.pure _
    | ok pins => exact h.bind (forEach h (hstep _) pins) fun _ => h.pure _

omit hpause hpin in
theorem missingSize (hsize : ∀ cid, P _ (cluster.dagSize cid)) (pin : Pin) :
    P _ (missingSize cluster pin) := by
  rw [Migrate.missingSize]
  split
  · exact h.pure _
  · refine h.bind (hsize pin.cid) fun answer => ?_
    cases answer <;> exact h.pure _

theorem tagPins (hpins : P _ cluster.pins) (hsize : ∀ cid, P _ (cluster.dagSize cid)) :
    P _ (tagPins cluster p profile scan) := by
  have hstep (pin : Pin) : P _ (tagPin cluster scan profile pin) := by
    rw [tagPin]
    split
    · exact h.pure _
    · refine h.bind (missingSize h hsize pin) fun size => ?_
      split
      · exact h.pure _
      · exact sendPin h hpause hpin _
  rw [Migrate.tagPins]
  split
  · exact h.pure _
  · refine h.bind hpins fun answer => ?_
    cases answer with
    | error e => exact h.pure _
    | ok pins => exact h.bind (forEach h hstep pins) fun _ => h.pure _

end Migrate

end Pinning

/-! ## Repairing -/

section Repair

open PinKeeper.Repair

variable (hrecover : scan.dryRun = false → ∀ cid, P _ (cluster.recover cid)) {p : Policy}

include hrecover

theorem recover (b : BrokenPin) : P _ (recover cluster scan b) := by
  rw [Repair.recover]
  by_cases hpass : (!b.recoverable || scan.dryRun) = true
  · rw [if_pos hpass]
    exact h.pure _
  · rw [if_neg hpass]
    have hdry : scan.dryRun = false := by
      rw [Bool.or_eq_true, not_or] at hpass
      exact Bool.eq_false_iff.2 hpass.2
    refine h.bind (hrecover hdry _) fun answer => ?_
    refine h.bind (hpause hdry) fun _ => ?_
    cases answer <;> exact h.pure _

theorem recoverAll : ∀ bs : List BrokenPin, P _ (recoverAll cluster scan bs)
  | [] => h.pure _
  | b :: bs =>
    h.bind (recover h hpause hrecover b) fun _ => h.bind (recoverAll bs) fun _ => h.pure _

theorem repair (hpins : P _ cluster.pins) : P _ (repair cluster p scan) := by
  rw [Repair.repair]
  refine h.bind hpins fun answer => ?_
  cases answer with
  | error e => exact h.pure _
  | ok pins => exact h.bind (recoverAll h hpause hrecover _) fun _ => h.pure _

end Repair

end PinKeeper.Compositional
