import PinKeeper.Proofs.Maintenance.Rebalance

/-!
# Proofs/Maintenance/Convergence — one rebalancing is enough

A pin whose request succeeded has the peers that it should have, and by `target_target` it should
have them still; a pin for which no request was made had them before.  So for each pin that a
rebalancing leaves the plan changes nothing (`isNoop_planFor_rebalanced`), and a second run over
such pins makes no request and has nothing to report (`AllCorrect`).
-/

namespace PinKeeper.Rebalance

open Memory

/-! ## A report of no change -/

/-- Every pin is as it should be, and nothing was changed. -/
structure AllCorrect (r : Report) : Prop where
  alreadyCorrect : r.alreadyCorrect = r.total
  rebalanced : r.rebalanced = 0
  errors : r.errors = 0
  addedReplicas : r.addedReplicas = 0
  removedReplicas : r.removedReplicas = 0
  actions : r.actions = []
  severity : r.severity = 0
  balance : ∀ b ∈ r.nodes, b.before = b.after

theorem allCorrect_ofSettled {c : Placement} {dryRun : Bool} {settled : List Settled}
    (h : ∀ x ∈ settled, x.outcome = .alreadyCorrect) :
    AllCorrect (Report.ofSettled c dryRun settled) := by
  have hall : (settled.filter fun x => x.outcome = .alreadyCorrect) = settled :=
    List.filter_eq_self.2 fun x hx => decide_eq_true (h x hx)
  have hchanged : (settled.filter fun x => x.outcome = .changed) = [] :=
    List.filter_eq_nil_iff.2 fun x hx => by simp [h x hx]
  have hfailed : (settled.filter fun x => x.outcome.isFailed) = [] :=
    List.filter_eq_nil_iff.2 fun x hx => by simp [h x hx, Outcome.isFailed]
  have hkept : settled.map (·.kept) = settled.map (·.plan.current) :=
    List.map_congr_left fun x hx => by rw [Settled.kept, h x hx]
  refine ⟨?_, ?_, ?_, ?_, ?_, ?_, ?_, ?_⟩
  · rw [Report.ofSettled, hall]
  · rw [Report.ofSettled, hchanged]
    rfl
  · rw [Report.ofSettled, hfailed]
    rfl
  · rw [Report.ofSettled, hchanged]
    rfl
  · rw [Report.ofSettled, hchanged]
    rfl
  · exact List.filterMap_eq_nil_iff.2 fun x hx => by rw [Settled.action?, h x hx]
  · rw [Report.severity, Report.ofSettled, hchanged, hfailed]
    rfl
  · intro b hb
    obtain ⟨e, -, rfl⟩ := List.mem_map.1 hb
    change countIn e.1 (settled.map (·.plan.current)) = countIn e.1 (settled.map (·.kept))
    rw [hkept]

/-! ## What a rebalancing leaves -/

section Left

variable {p : Policy} {freeSpace : Dict Nat} {pin : Pin}

/-- The plan for a pin with the planned allocation changes nothing. -/
theorem isNoop_planFor_target (hbounds : p.replicationMin ≤ p.replicationMax) :
    (planFor p (.ofPolicy p freeSpace)
      { pin with allocations := target p freeSpace pin }).isNoop = true := by
  rw [isNoop_planFor_iff, target_target hbounds]
  exact fun _ => Iff.rfl

/-- **The plan for a pin that could be written where it had to be changes nothing.** -/
theorem isNoop_planFor_rebalanced {f : Faults} (hbounds : p.replicationMin ≤ p.replicationMax)
    (h : ∀ r ∈ request? p (.ofPolicy p freeSpace) false pin, f.pin pin.cid = none) :
    (planFor p (.ofPolicy p freeSpace)
      (rebalanced f p (.ofPolicy p freeSpace) false pin)).isNoop = true := by
  by_cases hnoop : (planFor p (.ofPolicy p freeSpace) pin).isNoop = true
  · rw [rebalanced, request?_of_isNoop hnoop]
    exact hnoop
  · have hr := request?_of_not_isNoop hnoop
    rw [rebalanced_of_no_fault hr (h _ hr)]
    exact isNoop_planFor_target hbounds

/-- **A rebalancing without faults does for a pin that another one has come to what it would have
done before.** -/
theorem rebalanced_rebalanced {f : Faults} (hbounds : p.replicationMin ≤ p.replicationMax)
    (h : f.pin pin.cid = none) (f' : Faults) :
    rebalanced f p (.ofPolicy p freeSpace) false
        (rebalanced f' p (.ofPolicy p freeSpace) false pin)
      = rebalanced f p (.ofPolicy p freeSpace) false pin := by
  rcases rebalanced_eq_or f' p (.ofPolicy p freeSpace) false pin with heq | ⟨⟨r, hr⟩, heq⟩
  · rw [heq]
  · have hnone : request? p (.ofPolicy p freeSpace) false
        { pin with allocations := target p freeSpace pin } = none :=
      request?_of_isNoop (isNoop_planFor_target hbounds)
    rw [heq, rebalanced_of_no_fault hr h]
    exact congrArg (asked f · _) hnone

/-- **A run over pins whose plans change nothing** makes no request and reports that all is
correct. -/
theorem run_of_isNoop {p : Policy} {t : Memory} (host : String) (dryRun : Bool)
    (ht : t.DistinctCids) (hpossible : Possible p t.faults)
    (hnoop : ∀ pin ∈ t.pins, (planFor p (.ofPolicy p t.freeSpace) pin).isNoop = true) :
    ∃ report, (run host p dryRun).run t = (.ok report, t.moved t.pins [.freeSpace, .pins]) ∧
      report.total = t.pins.length ∧ AllCorrect report := by
  have hpins : t.pins.map (rebalanced t.faults p (.ofPolicy p t.freeSpace) dryRun) = t.pins := by
    refine (List.map_congr_left fun pin hpin => ?_).trans t.pins.map_id
    rw [rebalanced, request?_of_isNoop (hnoop pin hpin)]
    rfl
  have hcalls : t.pins.flatMap (callsFor p (.ofPolicy p t.freeSpace) dryRun) = [] := by
    refine List.flatMap_eq_nil_iff.2 fun pin hpin => ?_
    rw [callsFor, request?_of_isNoop (hnoop pin hpin)]
    rfl
  have hrun := run_of_possible dryRun host ht hpossible
  rw [hpins, hcalls, List.append_nil] at hrun
  refine ⟨_, hrun, ?_, allCorrect_ofSettled fun x hx => ?_⟩
  · rw [Report.ofSettled, List.length_map]
  · obtain ⟨pin, hpin, rfl⟩ := List.mem_map.1 hx
    rw [settledBy, outcomeOf, if_pos (hnoop pin hpin)]

end Left

/-- **One rebalancing is enough.**  If no request of a run failed, the next run under the same
policy and with the same free space, dry or not, makes no request and reports that all is
correct. -/
theorem rebalance_converges (host : String) (p : Policy) (s t : Memory) (dryRun : Bool)
    (hmin : 1 ≤ p.replicationMin) (hmax : p.replicationMin ≤ p.replicationMax)
    (hs : s.DistinctCids) (hspace : s.faults.freeSpace = none) (hpins : s.faults.pins = none)
    (hok : ∀ cid, ¬Refused s
      ((rebalance (cluster host) p (.plain false) fun _ => pure ()).run s).2 cid)
    (htpins : t.pins = ((rebalance (cluster host) p (.plain false) fun _ => pure ()).run s).2.pins)
    (htspace : t.freeSpace = s.freeSpace) (htfree : t.faults.freeSpace = none)
    (htlist : t.faults.pins = none) :
    ∃ report, (rebalance (cluster host) p (.plain dryRun) fun _ => pure ()).run t
        = (.ok report, t.moved t.pins [.freeSpace, .pins]) ∧
      report.total = t.pins.length ∧ AllCorrect report := by
  have hvalid : boundsValid p = true := boundsValid_iff.2 ⟨hmin, hmax⟩
  have hrun := run_of_possible false host hs ⟨hvalid, hspace, hpins⟩
  rw [run] at hrun
  rw [hrun] at hok htpins
  rw [pins_moved] at htpins
  have hplace : InPlace s (settle (cluster host) p (.ofPolicy p s.freeSpace) (.plain false))
      _ _ _ := settle_inPlace host s
  refine run_of_isNoop host dryRun ?_ ⟨hvalid, htfree, htlist⟩ fun q hq => ?_
  · rw [DistinctCids, htpins, hplace.map_cid_effect]
    exact hs
  · rw [htpins] at hq
    obtain ⟨pin, hpin, rfl⟩ := List.mem_map.1 hq
    rw [htspace]
    exact isNoop_planFor_rebalanced hmax (fault_eq_none_of_not_refused hpin (hok pin.cid))

theorem rebalance_converges_sample :
    let first := (rebalance (cluster "alpha") Sample.policy (.plain false) fun _ => pure ()).run
      Sample.memory
    let s := { Sample.memory with pins := first.2.pins, faults := Sample.refusing "many" }
    Sample.memory.DistinctCids ∧ (∀ cid, ¬Refused Sample.memory first.2 cid) ∧
      ∃ report, (rebalance (cluster "alpha") Sample.policy (.plain false) fun _ => pure ()).run s
          = (.ok report, s.moved s.pins [.freeSpace, .pins]) ∧
        report.total = s.pins.length ∧ AllCorrect report :=
  ⟨by decide, fun _ => not_refused rfl _,
    rebalance_converges "alpha" Sample.policy Sample.memory _ false (by decide) (by decide)
      (by decide) rfl rfl (fun _ => not_refused rfl _) rfl rfl rfl rfl⟩

end PinKeeper.Rebalance
