import PinKeeper.Maintenance.Rebalance
import PinKeeper.Proofs.Cluster.Memory
import PinKeeper.Proofs.Placement.Plan

/-!
# Proofs/Maintenance/Rebalance — a run of `rebalance`, in one line

The peers that a pin should have (`target`) depend on the pin, the policy and the free space alone,
and a pin that has them should have them still (`target_target`).

Over a cluster in memory whose pins have distinct identifiers, a run settles each pin as it is
listed (`settledBy`), whatever becomes of the others.  `run_of_possible` says the whole run in
closed form: what it reports, the pins it leaves and the calls it makes; `run_of_not_possible` that
a run which cannot begin leaves everything.
-/

namespace PinKeeper.Rebalance

open Memory

/-! ## The peers that a pin should have -/

/-- Peers that a pin should have, by a policy and the free space of the peers. -/
def target (p : Policy) (freeSpace : Dict Nat) (pin : Pin) : List String :=
  (planFor p (.ofPolicy p freeSpace) pin).allocation

section Target

variable {p : Policy} {freeSpace : Dict Nat} {pin : Pin}

theorem nodup_target : (target p freeSpace pin).Nodup := Plan.nodup_allocation_make

theorem knows_of_mem_target {id : String} (h : id ∈ target p freeSpace pin) : p.Knows id :=
  Placement.contains_known_ofPolicy.1
    (Plan.contains_of_mem_make Placement.contains_of_mem_requiredPeers h)

theorem requiredPeers_subset_target : p.requiredPeers pin ⊆ target p freeSpace pin :=
  Plan.required_subset_make

theorem length_target_le : (target p freeSpace pin).length
    ≤ max p.replicationMax (p.requiredPeers pin).length := by
  have hor : (target p freeSpace pin).length ≤ p.replicationMax
      ∨ target p freeSpace pin ⊆ p.requiredPeers pin := Plan.length_make_le_or
  rcases hor with hle | hsubset
  · exact hle.trans (Nat.le_max_left _ _)
  · exact (nodup_target.length_le_of_subset hsubset).trans (Nat.le_max_right _ _)

/-- The peers that a pin should have are enough, or no other known peer has space. -/
theorem target_enough (hbounds : p.replicationMin ≤ p.replicationMax) :
    p.replicationMin ≤ (target p freeSpace pin).length ∨
      ∀ id, p.Knows id → id ∉ target p freeSpace pin →
        (Placement.ofPolicy p freeSpace).capacityOf id = 0 := by
  have henough : (Placement.ofPolicy p freeSpace).Sufficient (target p freeSpace pin) :=
    Plan.sufficient_make hbounds
  exact henough.imp id fun h id hid => h id (Placement.contains_known_ofPolicy.2 hid)

/-- **A plan changes nothing exactly if the pin has the peers that it should have.** -/
theorem isNoop_planFor_iff : (planFor p (.ofPolicy p freeSpace) pin).isNoop = true ↔
    ∀ id, id ∈ pin.allocations ↔ id ∈ target p freeSpace pin :=
  Plan.isNoop_make_iff Placement.contains_of_mem_requiredPeers

/-- **A pin that has the peers that it should have should have them still.** -/
theorem target_target (hbounds : p.replicationMin ≤ p.replicationMax) :
    target p freeSpace { pin with allocations := target p freeSpace pin }
      = target p freeSpace pin :=
  Plan.allocation_make_make Placement.contains_of_mem_requiredPeers hbounds

end Target

/-! ## A pin -/

variable (f : Faults) (p : Policy) (c : Placement) (dryRun : Bool) (pin : Pin)

/-- Request for a pin, if its plan changes anything and the run is not dry. -/
def request? : Option PinRequest :=
  if (planFor p c pin).isNoop || dryRun then none
  else some { PinRequest.ofPin pin with allocations := (planFor p c pin).allocation }

/-- What comes of the plan of a pin. -/
def outcomeOf : Outcome :=
  if (planFor p c pin).isNoop then .alreadyCorrect
  else if dryRun then .changed
  else (f.pin pin.cid).elim .changed .failed

/-- What becomes of a pin. -/
def settledBy : Settled := ⟨pin, planFor p c pin, outcomeOf f p c dryRun pin⟩

/-- Pin after a run that comes to it. -/
def rebalanced : Pin := asked f (request? p c dryRun pin) pin

/-- Calls for a pin. -/
def callsFor : List Call := (request? p c dryRun pin).toList.map .pin

variable {f p c dryRun pin}

theorem request?_of_isNoop (h : (planFor p c pin).isNoop = true) :
    request? p c dryRun pin = none := by
  rw [request?, h]
  rfl

theorem request?_of_not_isNoop (h : ¬(planFor p c pin).isNoop = true) :
    request? p c false pin
      = some { PinRequest.ofPin pin with allocations := (planFor p c pin).allocation } := by
  rw [request?, Bool.eq_false_iff.2 h]
  rfl

theorem eq_of_mem_request? {r : PinRequest} (h : r ∈ request? p c dryRun pin) :
    r = { PinRequest.ofPin pin with allocations := (planFor p c pin).allocation } := by
  rw [request?, Option.mem_ite_none_left] at h
  exact (Option.some.inj h.2).symm

theorem cid_of_mem_request? {r : PinRequest} (h : r ∈ request? p c dryRun pin) :
    r.cid = pin.cid := by
  rw [eq_of_mem_request? h]
  rfl

/-- A rebalanced pin has the planned allocation, and all else as before. -/
theorem update_request?_eq {r : PinRequest} (h : r ∈ request? p c dryRun pin) :
    update r pin = { pin with allocations := (planFor p c pin).allocation } := by
  rw [eq_of_mem_request? h]
  rfl

variable (f p c dryRun pin) in
/-- A pin is as it was, or was asked for with the planned allocation. -/
theorem rebalanced_eq_or : rebalanced f p c dryRun pin = pin ∨
    (∃ r, r ∈ request? p c dryRun pin) ∧
      rebalanced f p c dryRun pin = { pin with allocations := (planFor p c pin).allocation } := by
  refine (asked_eq_or f _ pin).imp id ?_
  rintro ⟨r, hr, heq⟩
  exact ⟨⟨r, hr⟩, heq.trans (update_request?_eq hr)⟩

/-- **Where its request does not fail, a pin that is asked for has the planned allocation.** -/
theorem rebalanced_of_no_fault {r : PinRequest} (hr : r ∈ request? p c dryRun pin)
    (h : f.pin pin.cid = none) :
    rebalanced f p c dryRun pin = { pin with allocations := (planFor p c pin).allocation } := by
  rw [rebalanced, Option.mem_def.1 hr, asked_of_no_fault (cid_of_mem_request? hr) h,
    update_request?_eq hr]

/-! ## The run -/

variable (host : String) (s : Memory)

/-- **Settling a pin is a matter of that pin.** -/
theorem settle_inPlace : InPlace s (settle (cluster host) p c (.plain dryRun))
    (settledBy s.faults p c dryRun) (rebalanced s.faults p c dryRun) (callsFor p c dryRun) where
  cid_effect pin := cid_asked s.faults _ pin
  about_calls pin := about_request fun r hr => cid_of_mem_request? hr
  run_step {pin before rest} log hothers := by
    rw [settle, settledBy, outcomeOf, rebalanced, callsFor, request?]
    by_cases hnoop : (planFor p c pin).isNoop = true
    · rw [if_pos hnoop, hnoop, if_pos rfl, Bool.true_or, if_pos rfl]
      simp only [Option.toList_none, List.map_nil, List.append_nil]
      rfl
    rw [if_neg hnoop, if_neg hnoop, Bool.eq_false_iff.2 hnoop, Bool.false_or]
    cases dryRun with
    | true =>
      simp only [Option.toList_none, List.map_nil, List.append_nil, if_true]
      rfl
    | false =>
      set r : PinRequest :=
        { PinRequest.ofPin pin with allocations := (planFor p c pin).allocation }
      change StateT.run (bind ((cluster host).pin r) _) _ = _
      rw [run_bind_of_run (run_pin_append host s log (r := r) rfl hothers)]
      cases s.faults.pin pin.cid <;> rfl

variable {m : Type → Type} [Monad m] [LawfulMonad m]

/-- Where nobody takes note, the pins are settled one after the other. -/
theorem settleAll_eq_mapM (cluster : Cluster m) (scan : Scan m) (total : Nat) :
    ∀ (done : Nat) (pins : List Pin),
      settleAll cluster p c scan (fun _ => pure ()) total done pins
        = pins.mapM (settle cluster p c scan)
  | _, [] => by rw [settleAll, List.mapM_nil]
  | done, pin :: pins => by
    rw [settleAll, List.mapM_cons, settleAll_eq_mapM cluster scan total (done + 1) pins]
    simp

/-- A rebalancing without pauses of which nobody takes note. -/
abbrev run (host : String) (p : Policy) (dryRun : Bool) :
    StateM Memory (Except Failure Report) :=
  rebalance (cluster host) p (.plain dryRun) fun _ => pure ()

theorem boundsValid_iff : boundsValid p = true ↔
    1 ≤ p.replicationMin ∧ p.replicationMin ≤ p.replicationMax := by
  rw [boundsValid, Bool.and_eq_true, decide_eq_true_iff, decide_eq_true_iff]

/-- A run comes to the pins: the bounds leave room, and free space and pins can be listed. -/
def Possible (p : Policy) (f : Faults) : Prop :=
  boundsValid p = true ∧ f.freeSpace = none ∧ f.pins = none

instance (p : Policy) (f : Faults) : Decidable (Possible p f) :=
  inferInstanceAs (Decidable (_ ∧ _ ∧ _))

variable (dryRun) in
/-- A run that comes to the pins ends as settling them ends. -/
theorem run_of_settled {s s' : Memory} {results : List Settled} (h : Possible p s.faults)
    (hsettle : (s.pins.mapM
        (settle (cluster host) p (.ofPolicy p s.freeSpace) (.plain dryRun))).run
          (s.moved s.pins [.freeSpace, .pins]) = (results, s')) :
    (run host p dryRun).run s
      = (.ok (Report.ofSettled (.ofPolicy p s.freeSpace) dryRun results), s') := by
  obtain ⟨hbounds, hspace, hpins⟩ := h
  have hlist : (cluster host).pins.run (s.moved s.pins [.freeSpace])
      = (.ok s.pins, s.moved s.pins [.freeSpace, .pins]) := run_pins_moved host hpins s.pins _
  rw [run, rebalance, hbounds, Bool.not_true, if_neg Bool.false_ne_true,
    run_bind_of_run (run_freeSpace host s), hspace, Faults.reply, run_bind_of_run hlist]
  simp only [settleAll_eq_mapM]
  rw [run_bind_of_run hsettle]
  rfl

variable (dryRun) in
/-- **A run that comes to the pins settles each by itself**, and asks for nothing but what they
need. -/
theorem run_of_possible {s : Memory} (hs : s.DistinctCids) (h : Possible p s.faults) :
    (run host p dryRun).run s =
      (.ok (Report.ofSettled (.ofPolicy p s.freeSpace) dryRun
          (s.pins.map (settledBy s.faults p (.ofPolicy p s.freeSpace) dryRun))),
        s.moved (s.pins.map (rebalanced s.faults p (.ofPolicy p s.freeSpace) dryRun))
          ([.freeSpace, .pins]
            ++ s.pins.flatMap (callsFor p (.ofPolicy p s.freeSpace) dryRun))) := by
  have hplace : InPlace s (settle (cluster host) p (.ofPolicy p s.freeSpace) (.plain dryRun))
      _ _ _ := settle_inPlace host s
  exact run_of_settled dryRun host h (hplace.run_mapM hs [.freeSpace, .pins])

variable (dryRun) in
/-- **A run that does not come to the pins fails and leaves them**, having asked for nothing but
their listing. -/
theorem run_of_not_possible {s : Memory} (h : ¬Possible p s.faults) :
    ∃ e calls, (run host p dryRun).run s = (.error e, s.moved s.pins calls)
      ∧ calls.Sublist [.freeSpace, .pins] := by
  rw [run, rebalance]
  by_cases hbounds : boundsValid p = true
  · rw [hbounds, Bool.not_true, if_neg Bool.false_ne_true, run_bind_of_run (run_freeSpace host s)]
    cases hspace : s.faults.freeSpace with
    | some e =>
      exact ⟨.transport e, [.freeSpace], rfl, (List.nil_sublist _).cons_cons _⟩
    | none =>
      rw [Faults.reply, run_bind_of_run (run_pins host _), faults_moved]
      cases hpins : s.faults.pins with
      | some e => exact ⟨.transport e, [.freeSpace, .pins], by rw [moved_moved]; rfl, .refl _⟩
      | none => exact absurd ⟨hbounds, hspace, hpins⟩ h
  · rw [Bool.eq_false_iff.2 hbounds, Bool.not_false, if_pos rfl]
    exact ⟨boundsFailure p, [], by rw [moved_self]; rfl, List.nil_sublist _⟩

/-- A request that a run made and that was not refused did not fail. -/
theorem fault_eq_none_of_not_refused {s : Memory} {pin : Pin} {ps : List Pin} (hpin : pin ∈ s.pins)
    (hnot : ¬Refused s
      (s.moved ps ([.freeSpace, .pins] ++ s.pins.flatMap (callsFor p c dryRun))) pin.cid) :
    ∀ r ∈ request? p c dryRun pin, s.faults.pin pin.cid = none := by
  intro r hr
  have hcall : Call.pin r ∈ callsFor p c dryRun pin :=
    List.mem_map_of_mem (Option.mem_toList.2 hr)
  by_contra hfails
  refine hnot ⟨r, ?_, cid_of_mem_request? hr, Option.isSome_iff_ne_none.2 hfails⟩
  rw [callsUntil_moved]
  exact List.mem_append_right _ (List.mem_flatMap.2 ⟨pin, hpin, hcall⟩)

end PinKeeper.Rebalance

/-! ## A small cluster

Of its pins one has a peer that the policy does not know, another peer twice and no required one,
one has too many peers, one too few and no owner, and one is as it should be. -/

namespace PinKeeper.Sample

/-- Node with a peer. -/
def node (name peer : String) (reservedGb : Nat) : Node := ⟨name, name, some peer, reservedGb⟩

/-- Policy of two or three replicas on four nodes. -/
def policy : Policy where
  auth := none
  backupNode := some "beta"
  defaultNode := none
  replicationMin := 2
  replicationMax := 3
  profiles := .ofList [("acme", ⟨"acme", "alpha"⟩)]
  nodes := .ofList [("alpha", node "alpha" "A" 0), ("beta", node "beta" "B" 0),
    ("gamma", node "gamma" "C" 1), ("delta", node "delta" "D" 0)]

/-- Pin with an owner or none. -/
def pin (cid : String) (owner : Option String) (allocations : List String) : Pin where
  cid := cid
  name := none
  allocations := allocations
  metadata := .ofList (owner.toList.map fun profile => (orgKey, profile))
  replicationMin := some 2
  replicationMax := none
  peerMap := .ofList [("A", ⟨"alpha", .pinError, some "no space"⟩), ("B", ⟨"beta", .pinned, none⟩)]
  created := none

def memory : Memory where
  peers := []
  pins := [pin "astray" (some "acme") ["X", "C", "C"],
    pin "many" (some "acme") ["D", "C", "B", "A"], pin "few" none ["D"],
    pin "right" (some "acme") ["B", "A"]]
  freeSpace := .ofList [("A", 5), ("C", 2000000000), ("D", 7)]
  dagSizes := .ofList [("few", 42)]
  added := []
  healOnRecover := true
  faults := .none
  calls := []

/-- Of the requests for pins only the one for a given pin fails. -/
def refusing (cid : String) : Faults :=
  { Faults.none with pin := fun x => if x = cid then some (.api 500 "no quorum") else none }

end PinKeeper.Sample
