import PinKeeper.Http.Client
import PinKeeper.Proofs.Maintenance.Rebalance

/-!
# Proofs/Maintenance/Forsaken — when a rebalancing asks for no replicas

A planned allocation is empty only if each of its three sources is: the known peers that the pin
has, the required ones, and the known peers with space (`allocation_make_eq_nil_iff`).  Cutting down
has no part in it, as it stops at the greatest number of replicas, which is at least one.  A pin
that has peers all the same, none of which the policy knows, loses them for nothing: it is
`Forsaken`, and the request for it names no peers.

The calls of a run are those for the listed pins one after the other, and this needs no distinct
identifiers (`run_of_listed`): what is asked for a pin does not depend on what became of others.
-/

namespace PinKeeper

/-! ## Empty allocations -/

namespace Plan

variable {c : Placement} {allocations required : List String}

/-- **A planned allocation is empty exactly if there is nothing to plan it from.** -/
theorem allocation_make_eq_nil_iff (hmin : 1 ≤ c.replicationMin)
    (hbounds : c.replicationMin ≤ c.replicationMax) :
    (make c allocations required).allocation = [] ↔
      (∀ id ∈ allocations, ¬c.known.contains id = true) ∧ required = [] ∧
        ∀ id, c.known.contains id = true → c.capacityOf id = 0 := by
  constructor
  · intro hnil
    have hrequired : required ⊆ (make c allocations required).allocation := required_subset_make
    have hwanted : c.fill (wanted c allocations required) = [] := by
      have hnodup : (c.fill (wanted c allocations required)).Nodup := c.nodup_fill nodup_wanted
      have hadd := c.length_trim_add required hnodup
      have hle := c.length_excess_le required (c.fill (wanted c allocations required))
      rw [← allocation_make, hnil, List.length_nil] at hadd
      exact List.length_eq_zero_iff.1 (by omega)
    refine ⟨fun id hid hknown => ?_, List.subset_nil.1 (hnil ▸ hrequired), fun id hknown => ?_⟩
    · have hmem : id ∈ wanted c allocations required := mem_wanted.2 (.inl ⟨hid, hknown⟩)
      have hfill := c.subset_fill _ hmem
      rw [hwanted] at hfill
      cases hfill
    · have henough : c.Sufficient [] := hnil ▸ sufficient_make hbounds
      rcases henough with hfew | hfull
      · exact absurd (hmin.trans hfew) (Nat.lt_irrefl 0)
      · exact hfull id hknown List.not_mem_nil
  · rintro ⟨hunknown, rfl, hfull⟩
    have hwanted : wanted c allocations [] = [] := by
      refine List.eq_nil_iff_forall_not_mem.2 fun id hid => ?_
      rcases mem_wanted.1 hid with ⟨hmem, hknown⟩ | hmem
      · exact hunknown id hmem hknown
      · cases hmem
    have hsufficient : c.Sufficient [] := .inr fun id hknown _ => hfull id hknown
    rw [allocation_make, hwanted, c.fill_of_sufficient hsufficient]
    rfl

end Plan

namespace Rebalance

open Memory

/-- A pin has peers, but none that the policy knows; nor does it require any, nor does it know of
one that has space. -/
structure Forsaken (p : Policy) (freeSpace : Dict Nat) (pin : Pin) : Prop where
  placed : pin.allocations ≠ []
  unknown : ∀ id ∈ pin.allocations, ¬p.Knows id
  unrequired : p.requiredPeers pin = []
  full : ∀ id, p.Knows id → (Placement.ofPolicy p freeSpace).capacityOf id = 0

section Pin

variable {p : Policy} {freeSpace : Dict Nat} {pin : Pin}

theorem target_eq_nil_iff (h : boundsValid p = true) : target p freeSpace pin = [] ↔
    (∀ id ∈ pin.allocations, ¬p.Knows id) ∧ p.requiredPeers pin = [] ∧
      ∀ id, p.Knows id → (Placement.ofPolicy p freeSpace).capacityOf id = 0 := by
  obtain ⟨hmin, hbounds⟩ := boundsValid_iff.1 h
  rw [target, planFor, Plan.allocation_make_eq_nil_iff hmin hbounds]
  simp only [Placement.contains_known_ofPolicy]

/-- **A request names no peers exactly if the pin is forsaken.** -/
theorem mem_request?_and_allocations_eq_nil_iff (h : boundsValid p = true) {r : PinRequest}
    {dryRun : Bool} :
    (r ∈ request? p (.ofPolicy p freeSpace) dryRun pin ∧ r.allocations = []) ↔
      dryRun = false ∧ Forsaken p freeSpace pin ∧
        r = { PinRequest.ofPin pin with allocations := [] } := by
  constructor
  · rintro ⟨hr, hnil⟩
    have heq := eq_of_mem_request? hr
    have htarget : target p freeSpace pin = [] := (congrArg (·.allocations) heq).symm.trans hnil
    obtain ⟨hunknown, hrequired, hfull⟩ := (target_eq_nil_iff h).1 htarget
    rw [request?, Option.mem_ite_none_left, Bool.or_eq_true, not_or] at hr
    obtain ⟨⟨hchange, hdry⟩, -⟩ := hr
    refine ⟨Bool.eq_false_iff.2 hdry, ⟨fun hempty => ?_, hunknown, hrequired, hfull⟩, ?_⟩
    · refine hchange (isNoop_planFor_iff.2 fun id => ?_)
      rw [hempty, htarget]
    · rw [heq, ← htarget]
      rfl
  · rintro ⟨rfl, hpin, rfl⟩
    have htarget : target p freeSpace pin = [] :=
      (target_eq_nil_iff h).2 ⟨hpin.unknown, hpin.unrequired, hpin.full⟩
    refine ⟨?_, rfl⟩
    rw [request?_of_not_isNoop, ← htarget]
    · rfl
    · rw [isNoop_planFor_iff, htarget]
      intro hsame
      exact hpin.placed (List.eq_nil_iff_forall_not_mem.2 fun id hid =>
        List.not_mem_nil ((hsame id).1 hid))

end Pin

/-! ## The calls of a run -/

section Run

variable (host : String) (p : Policy) (c : Placement) (dryRun : Bool)

/-- What is asked for a pin, and what comes of it, depends on the pin and on the faults. -/
theorem run_settle (pin : Pin) (s : Memory) :
    ∃ ps, (settle (cluster host) p c (.plain dryRun) pin).run s
      = (settledBy s.faults p c dryRun pin, s.moved ps (callsFor p c dryRun pin)) := by
  rw [settle, settledBy, outcomeOf, callsFor, request?]
  by_cases hnoop : (planFor p c pin).isNoop = true
  · rw [if_pos hnoop, hnoop, if_pos rfl, Bool.true_or, if_pos rfl]
    exact ⟨s.pins, congrArg _ s.moved_self.symm⟩
  rw [if_neg hnoop, if_neg hnoop, Bool.eq_false_iff.2 hnoop, Bool.false_or]
  cases dryRun with
  | true => exact ⟨s.pins, congrArg _ s.moved_self.symm⟩
  | false =>
    set r : PinRequest := { PinRequest.ofPin pin with allocations := (planFor p c pin).allocation }
    refine ⟨written s.faults r s.pins, ?_⟩
    change StateT.run (bind ((cluster host).pin r) _) _ = _
    rw [run_bind_of_run (run_pin host s r), show r.cid = pin.cid from rfl]
    cases s.faults.pin pin.cid <;> rfl

theorem run_settleEach : ∀ (pins : List Pin) (s : Memory),
    ∃ ps, (pins.mapM (settle (cluster host) p c (.plain dryRun))).run s
      = (pins.map (settledBy s.faults p c dryRun), s.moved ps (pins.flatMap (callsFor p c dryRun)))
  | [], s => ⟨s.pins, by rw [List.mapM_nil, List.flatMap_nil, moved_self]; rfl⟩
  | pin :: pins, s => by
    obtain ⟨qs, hstep⟩ := run_settle host p c dryRun pin s
    obtain ⟨ps, hrest⟩ := run_settleEach pins (s.moved qs (callsFor p c dryRun pin))
    rw [faults_moved, moved_moved] at hrest
    refine ⟨ps, ?_⟩
    rw [List.mapM_cons, run_bind_of_run hstep, run_bind_of_run hrest]
    rfl

variable {p} in
/-- **A run that comes to the pins asks for each what it needs**, whatever identifiers they have. -/
theorem run_of_listed {s : Memory} (h : Possible p s.faults) :
    ∃ ps, (run host p dryRun).run s =
      (.ok (Report.ofSettled (.ofPolicy p s.freeSpace) dryRun
          (s.pins.map (settledBy s.faults p (.ofPolicy p s.freeSpace) dryRun))),
        s.moved ps ([.freeSpace, .pins]
          ++ s.pins.flatMap (callsFor p (.ofPolicy p s.freeSpace) dryRun))) := by
  obtain ⟨ps, hsettle⟩ := run_settleEach host p (.ofPolicy p s.freeSpace) dryRun s.pins
    (s.moved s.pins [.freeSpace, .pins])
  rw [faults_moved, moved_moved] at hsettle
  exact ⟨ps, run_of_settled dryRun host h hsettle⟩

variable {host p dryRun} in
/-- The requests of a run are those for the listed pins, once it comes to them. -/
theorem pin_mem_callsUntil_iff {s : Memory} {r : PinRequest} :
    Call.pin r ∈ s.callsUntil ((run host p dryRun).run s).2 ↔
      Possible p s.faults ∧
        ∃ pin ∈ s.pins, r ∈ request? p (.ofPolicy p s.freeSpace) dryRun pin := by
  by_cases hpossible : Possible p s.faults
  · obtain ⟨ps, hrun⟩ := run_of_listed host dryRun hpossible
    rw [hrun, callsUntil_moved, List.mem_append, and_iff_right hpossible]
    have hhead : ¬Call.pin r ∈ [Call.freeSpace, Call.pins] := by
      intro hmem
      rcases List.mem_pair.1 hmem with hmem | hmem <;> cases hmem
    simp only [hhead, false_or, List.mem_flatMap, callsFor, List.mem_map, Option.mem_toList]
    refine exists_congr fun pin => and_congr_right fun _ => ?_
    constructor
    · rintro ⟨_, hr, heq⟩
      cases heq
      exact hr
    · exact fun hr => ⟨r, hr, rfl⟩
  · obtain ⟨e, calls, hrun, hcalls⟩ := run_of_not_possible dryRun host hpossible
    rw [hrun, callsUntil_moved]
    refine iff_of_false (fun hmem => ?_) fun h => hpossible h.1
    rcases List.mem_pair.1 (hcalls.subset hmem) with hmem | hmem <;> cases hmem

end Run

/-! ## Requests that name no peers -/

end Rebalance

/-- The name of a parameter that carries metadata says so. -/
theorem Http.fst_ne_of_mem_metadataParameters {metadata : Dict String} {x : String × String}
    (h : x ∈ metadataParameters metadata) : x.1 ≠ "allocations" := by
  obtain ⟨e, -, rfl⟩ := List.mem_map.1 h
  intro heq
  have hchars := congrArg String.toList heq
  simp at hchars

theorem Http.fst_eq_of_mem_optionalParameter {name : String} {v : Option String}
    {x : String × String} (h : x ∈ optionalParameter name v) : x.1 = name := by
  cases v with
  | none => cases h
  | some v =>
    rw [List.mem_singleton.1 h]

/-- **A request that names no peers says nothing of allocations on the wire.** -/
theorem Http.allocations_eq_nil_iff {r : PinRequest} :
    r.allocations = [] ↔ ∀ v, ("allocations", v) ∉ pinParameters r := by
  constructor
  · intro hnil v hmem
    simp only [pinParameters, List.mem_append, List.mem_singleton] at hmem
    rcases hmem with ((((hmode | hname) | hpeers) | hleast) | hmost) | hmetadata
    · exact absurd (Prod.mk.inj hmode).1 (by decide)
    · exact absurd (fst_eq_of_mem_optionalParameter hname) (of_decide_eq_false rfl)
    · rw [allocationParameter, hnil] at hpeers
      cases hpeers
    · exact absurd (fst_eq_of_mem_optionalParameter hleast) (of_decide_eq_false rfl)
    · exact absurd (fst_eq_of_mem_optionalParameter hmost) (of_decide_eq_false rfl)
    · exact fst_ne_of_mem_metadataParameters hmetadata rfl
  · intro h
    by_contra hne
    refine h (Text.joined "," r.allocations) ?_
    simp [pinParameters, allocationParameter, hne]

namespace Rebalance

/-- **A rebalancing asks for no replicas of forsaken pins, and of no others.**  Every other request
names peers.  One that names none says nothing of allocations on the wire, so that the cluster keeps
its own counsel. -/
theorem asks_for_none_iff (host : String) (p : Policy) (dryRun : Bool) (s : Memory)
    (r : PinRequest) :
    (Call.pin r ∈ s.callsUntil ((run host p dryRun).run s).2 ∧ r.allocations = [] ↔
      dryRun = false ∧ Possible p s.faults ∧ ∃ pin ∈ s.pins, Forsaken p s.freeSpace pin ∧
        r = { PinRequest.ofPin pin with allocations := [] }) ∧
      (r.allocations = [] ↔ ∀ v, ("allocations", v) ∉ Http.pinParameters r) := by
  refine ⟨?_, Http.allocations_eq_nil_iff⟩
  rw [pin_mem_callsUntil_iff]
  constructor
  · rintro ⟨⟨hpossible, pin, hpin, hr⟩, hnil⟩
    obtain ⟨hdry, hforsaken, heq⟩ :=
      (mem_request?_and_allocations_eq_nil_iff hpossible.1).1 ⟨hr, hnil⟩
    exact ⟨hdry, hpossible, pin, hpin, hforsaken, heq⟩
  · rintro ⟨hdry, hpossible, pin, hpin, hforsaken, heq⟩
    obtain ⟨hr, hnil⟩ :=
      (mem_request?_and_allocations_eq_nil_iff hpossible.1).2 ⟨hdry, hforsaken, heq⟩
    exact ⟨⟨hpossible, pin, hpin, hr⟩, hnil⟩

end Rebalance

/-- Pin on a peer that a policy without nodes does not know. -/
def Sample.stranded : Pin := pin "lone" none ["X"]

/-- Under a policy with valid bounds a rebalancing may ask for a pin without replicas. -/
theorem Rebalance.asks_for_none_of_stranded :
    let s := { Sample.memory with pins := [Sample.stranded] }
    1 ≤ Policy.default.replicationMin ∧
      Policy.default.replicationMin ≤ Policy.default.replicationMax ∧
      ∃ r, Call.pin r ∈ s.callsUntil ((run "alpha" Policy.default false).run s).2 ∧
        r.allocations = [] := by
  intro s
  have hrequest : request? Policy.default (.ofPolicy Policy.default s.freeSpace) false
      Sample.stranded = some { PinRequest.ofPin Sample.stranded with allocations := [] } := by
    decide +kernel
  refine ⟨by decide, by decide, { PinRequest.ofPin Sample.stranded with allocations := [] }, ?_,
    rfl⟩
  exact pin_mem_callsUntil_iff.2 ⟨by decide, Sample.stranded, List.mem_singleton_self _, hrequest⟩

end PinKeeper
