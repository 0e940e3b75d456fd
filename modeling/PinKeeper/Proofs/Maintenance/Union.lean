import Mathlib.Data.Finset.Dedup
import PinKeeper.Proofs.Maintenance.Account

/-!
# Proofs/Maintenance/Union — adding the required peers is a union

Where the requests of a run succeed, each pin is left with the peers it had, in their order, and
then those it lacked, in the order in which they are required (`united`,
`mergeAllocations_eq_append`).  Nothing else of a pin changes, and there is no request for a pin
that lacks nothing.

A pin whose requests fail is no exception where no request was made for it: it had all peers, and
the union is the pin as it was (`ensured_of_unopposed`).  So two runs are two unions.  Their order
shows in the order of the peers and not in the set of them (`samePeers_united`), and if they are for
one profile, the second adds nothing (`exists_idle_run_of_united`).
-/

namespace PinKeeper

namespace Migrate

open Memory

/-! ## The account -/

/-- **Every pin of a log is counted once.** -/
theorem Log.length_eq (log : Log) :
    log.length = log.count .untouched + log.count .changed + log.failures.length := by
  rw [count, count, failures]
  induction log with
  | nil => rfl
  | cons e log ih =>
    obtain ⟨cid, outcome⟩ := e
    cases outcome <;> simp [ih] <;> omega

/-! ## A union -/

/-- Pin with the required peers that it lacks, each once, after those that it has. -/
def united (required : List String) (pin : Pin) : Pin :=
  { pin with allocations :=
      pin.allocations ++ (required.filter fun id => id ∉ pin.allocations).eraseDups }

/-- True for a pin without some required peer. -/
def lacks (required : List String) (pin : Pin) : Bool :=
  required.any fun id => id ∉ pin.allocations

/-- **A merge adds what is missing, each once and in its order**, whatever occurs twice in either
list. -/
theorem mergeAllocations_eq_append : ∀ ys xs : List String,
    mergeAllocations xs ys = xs ++ (ys.filter fun y => y ∉ xs).eraseDups
  | [], xs => (List.append_nil xs).symm
  | y :: ys, xs => by
    have ih := mergeAllocations_eq_append ys (Policy.addNew xs y)
    by_cases hy : y ∈ xs
    · rw [Policy.addNew_of_mem hy] at ih
      rw [List.filter_cons_of_neg (by simpa using hy), ← ih, mergeAllocations, List.foldl_cons,
        Policy.addNew_of_mem hy]
      rfl
    · have hnew : Policy.addNew xs y = xs ++ [y] :=
        if_neg fun h => hy (List.contains_iff_mem.1 h)
      have hfilter : (ys.filter fun z => z ∉ xs ++ [y])
          = (ys.filter fun z => z ∉ xs).filter fun z => !z == y := by
        rw [List.filter_filter]
        exact List.filter_congr fun z _ => by by_cases hz : z = y <;> simp [hz]
      rw [List.filter_cons_of_pos (by simpa using hy), List.eraseDups_cons, ← hfilter]
      rw [hnew, List.append_assoc] at ih
      rw [mergeAllocations, List.foldl_cons, hnew]
      exact ih

section Pin

variable {f : Faults} {required : List String} {pin : Pin}

theorem united_eq (required : List String) (pin : Pin) : united required pin
    = { pin with allocations := mergeAllocations pin.allocations required } := by
  rw [united, mergeAllocations_eq_append]

theorem mem_allocations_united {id : String} :
    id ∈ (united required pin).allocations ↔ id ∈ pin.allocations ∨ id ∈ required := by
  rw [united_eq]
  exact mem_mergeAllocations

theorem lacks_eq_false_iff : lacks required pin = false ↔ required ⊆ pin.allocations := by
  simp [lacks, List.subset_def]

/-- A pin that lacks nothing is the union already. -/
theorem united_of_subset (h : required ⊆ pin.allocations) : united required pin = pin := by
  rw [united_eq, mergeAllocations, Policy.foldl_addNew_of_subset h]

theorem ensureRequest?_eq (required : List String) (pin : Pin) : ensureRequest? required pin
    = if lacks required pin then some (.ofPin (united required pin)) else none := by
  rw [ensureRequest?]
  cases hlacks : lacks required pin with
  | false =>
    rw [if_pos (all_contains_iff.2 (lacks_eq_false_iff.1 hlacks)), if_neg Bool.false_ne_true]
  | true =>
    have hnot : ¬required.all pin.allocations.contains = true := fun hall => by
      rw [lacks_eq_false_iff.2 (all_contains_iff.1 hall)] at hlacks
      cases hlacks
    rw [if_neg hnot, if_pos rfl, united_eq]
    rfl

/-- A request for the pin would succeed, or none is made. -/
def Unopposed (f : Faults) (required : List String) (pin : Pin) : Prop :=
  f.pin pin.cid = none ∨ required ⊆ pin.allocations

/-- **A run that is not refused a pin leaves the union.** -/
theorem ensured_of_unopposed (h : Unopposed f required pin) :
    ensured f false required pin = united required pin := by
  rcases h with h | h
  · rw [ensured_of_no_fault h, united_eq]
  · rw [ensured, ensureRequest?_eq, lacks_eq_false_iff.2 h, united_of_subset h]
    rfl

theorem sent_of_unopposed (h : Unopposed f required pin) :
    sent f false (ensureRequest? required pin) pin
      = if lacks required pin then .changed else .untouched := by
  rw [ensureRequest?_eq]
  rcases h with h | h
  · split
    · rw [sent, h]
      rfl
    · rfl
  · rw [lacks_eq_false_iff.2 h]
    rfl

/-- Two pins that differ at most in their allocations, which are the same as sets. -/
def SamePeers (pin pin' : Pin) : Prop :=
  { pin with allocations := pin'.allocations } = pin' ∧
    pin.allocations.toFinset = pin'.allocations.toFinset

/-- **Two unions may change places.** -/
theorem samePeers_united (xs ys : List String) (pin : Pin) :
    SamePeers (united ys (united xs pin)) (united xs (united ys pin)) := by
  refine ⟨rfl, Finset.ext fun id => ?_⟩
  rw [List.mem_toFinset, List.mem_toFinset, mem_allocations_united, mem_allocations_united,
    mem_allocations_united, mem_allocations_united, or_right_comm]

end Pin

/-! ## A run -/

section Run

variable {host : String} {p : Policy} {s : Memory} {profile : String} {required : List String}

/-- Requests of a run for pins, each with the union. -/
theorem flatMap_made (required : List String) (pins : List Pin) :
    (pins.flatMap fun pin => (made false (ensureRequest? required pin)).toList.map Call.pin)
      = (pins.filter (lacks required)).map fun pin => .pin (.ofPin (united required pin)) := by
  induction pins with
  | nil => rfl
  | cons pin pins ih =>
    rw [List.flatMap_cons, ih, List.filter_cons, made, if_neg Bool.false_ne_true, ensureRequest?_eq]
    split <;> rfl

theorem mem_calls_of_mem {pins : List Pin} {pin : Pin} (hpin : pin ∈ pins) {r : PinRequest}
    (hr : r ∈ ensureRequest? required pin) :
    Call.pin r ∈ .pins :: pins.flatMap fun pin =>
      (made false (ensureRequest? required pin)).toList.map Call.pin :=
  List.mem_cons_of_mem _
    (List.mem_flatMap.2 ⟨pin, hpin, List.mem_map_of_mem (Option.mem_toList.2 hr)⟩)

/-- Outcomes for pins that are not refused: those that lack a peer are changed. -/
def outcomes (required : List String) (pins : List Pin) : Log :=
  pins.map fun pin => (pin.cid, if lacks required pin then .changed else .untouched)

theorem count_changed_outcomes (required : List String) (pins : List Pin) :
    (outcomes required pins).count .changed = (pins.filter (lacks required)).length := by
  rw [Log.count, outcomes, List.filter_map, List.length_map]
  refine congrArg List.length (List.filter_congr fun pin _ => ?_)
  rw [Function.comp_apply]
  cases lacks required pin <;> rfl

theorem failures_outcomes (required : List String) (pins : List Pin) :
    (outcomes required pins).failures = [] := by
  rw [Log.failures, outcomes, List.filterMap_map, List.filterMap_eq_nil_iff]
  intro pin _
  rw [Function.comp_apply]
  cases lacks required pin <;> rfl

variable (host) in
/-- **A run that is refused nothing**, in one line. -/
theorem run_of_unopposed (hs : s.DistinctCids) (hrequired : p.requiredFor profile = .ok required)
    (hpins : s.faults.pins = none) (h : ∀ pin ∈ s.pins, Unopposed s.faults required pin) :
    (ensurePins (cluster host) p profile (.plain false)).run s
      = (.ok (EnsureReport.ofLog required false (outcomes required s.pins)),
          s.moved (s.pins.map (united required)) (.pins :: (s.pins.filter (lacks required)).map
            fun pin => .pin (.ofPin (united required pin)))) := by
  have hsent : (s.pins.map fun pin =>
        (pin.cid, sent s.faults false (ensureRequest? required pin) pin))
      = outcomes required s.pins :=
    List.map_congr_left fun pin hpin => by rw [sent_of_unopposed (h pin hpin)]
  rw [run_ensurePins hs hrequired hpins, hsent, flatMap_made,
    List.map_congr_left fun pin hpin => ensured_of_unopposed (h pin hpin)]

/-- **A run over pins that lack nothing** asks for nothing, with severity zero. -/
theorem exists_idle_run (hs : s.DistinctCids) (hrequired : p.requiredFor profile = .ok required)
    (hpins : s.faults.pins = none) (h : ∀ pin ∈ s.pins, required ⊆ pin.allocations) :
    ∃ report, (ensurePins (cluster host) p profile (.plain false)).run s
      = (.ok report, s.moved s.pins [.pins]) ∧ report.severity = 0 := by
  have hnone : s.pins.filter (lacks required) = [] := by
    rw [List.filter_eq_nil_iff]
    intro pin hpin
    rw [lacks_eq_false_iff.2 (h pin hpin)]
    exact Bool.false_ne_true
  have hsame : s.pins.map (united required) = s.pins :=
    (List.map_congr_left fun pin hpin => united_of_subset (h pin hpin)).trans s.pins.map_id
  refine ⟨.ofLog required false (outcomes required s.pins), ?_, ?_⟩
  · rw [run_of_unopposed host hs hrequired hpins fun pin hpin => .inr (h pin hpin), hsame, hnone]
    rfl
  · rw [EnsureReport.severity, EnsureReport.ofLog, count_changed_outcomes, failures_outcomes, hnone]
    rfl

/-- A run over pins that another run has left asks for nothing. -/
theorem exists_idle_run_of_united {t : Memory} (hs : s.DistinctCids)
    (hrequired : p.requiredFor profile = .ok required) (ht : t.pins = s.pins.map (united required))
    (hpins : t.faults.pins = none) :
    ∃ report, (ensurePins (cluster host) p profile (.plain false)).run t
      = (.ok report, t.moved t.pins [.pins]) ∧ report.severity = 0 := by
  have hdistinct : t.DistinctCids := by
    rw [DistinctCids, ht, List.map_map]
    exact hs
  refine exists_idle_run hdistinct hrequired hpins fun pin hpin id hid => ?_
  rw [ht] at hpin
  obtain ⟨pin, -, rfl⟩ := List.mem_map.1 hpin
  exact mem_allocations_united.2 (.inr hid)

/-- A pin that is not refused, though each request for it is made, is unopposed. -/
theorem unopposed_of_not_refused {t : Memory} {pin : Pin} (hnot : ¬Refused s t pin.cid)
    (hcalls : ∀ r ∈ ensureRequest? required pin, Call.pin r ∈ s.callsUntil t) :
    Unopposed s.faults required pin := by
  cases hlacks : lacks required pin with
  | false => exact .inr (lacks_eq_false_iff.1 hlacks)
  | true =>
    refine .inl ?_
    by_contra hfault
    have hr : PinRequest.ofPin (united required pin) ∈ ensureRequest? required pin := by
      rw [ensureRequest?_eq, if_pos hlacks]
      rfl
    exact hnot ⟨_, hcalls _ hr, rfl, Option.isSome_iff_ne_none.2 hfault⟩

/-- What a run leaves, whether or not the policy has the required peers. -/
theorem exists_after (host : String) (p : Policy) (hs : s.DistinctCids)
    (hpins : s.faults.pins = none) (profile : String) :
    ∃ calls, (Pass.ensurePins profile).after host p false s
        = s.moved (s.pins.map (ensured s.faults false (Pass.peersFor p profile))) calls ∧
      ∀ pin ∈ s.pins, ∀ r ∈ ensureRequest? (Pass.peersFor p profile) pin, Call.pin r ∈ calls := by
  rw [Pass.after, Pass.peersFor]
  cases hrequired : p.requiredFor profile with
  | error e =>
    have hsame : ∀ pin, ensured s.faults false [] pin = pin := fun pin =>
      (ensured_of_unopposed (.inr (List.nil_subset _))).trans
        (united_of_subset (List.nil_subset _))
    refine ⟨[], ?_, fun pin _ r hr => ?_⟩
    · rw [run_ensurePins_of_error hrequired]
      exact (s.moved_self.symm.trans (congrArg (s.moved · [])
        ((List.map_congr_left fun pin _ => hsame pin).trans s.pins.map_id).symm))
    · cases hr
  | ok required =>
    refine ⟨_, by rw [run_ensurePins hs hrequired hpins]; rfl, fun pin hpin r hr => ?_⟩
    exact mem_calls_of_mem hpin hr

theorem unopposed_of_run (hs : s.DistinctCids) (hrequired : p.requiredFor profile = .ok required)
    (hpins : s.faults.pins = none) (hnot : ∀ cid, ¬Refused s
      ((ensurePins (cluster host) p profile (.plain false)).run s).2 cid) :
    ∀ pin ∈ s.pins, Unopposed s.faults required pin := by
  intro pin hpin
  refine unopposed_of_not_refused (hnot pin.cid) fun r hr => ?_
  rw [run_ensurePins hs hrequired hpins, callsUntil_moved]
  exact mem_calls_of_mem hpin hr

end Run

/-! ## Two runs -/

section Commute

variable (host : String) (p : Policy) {s : Memory} (q q' : String)

/-- Two runs that are refused nothing find no pin in their way, whichever comes first. -/
theorem unopposed_both (hs : s.DistinctCids) (hpins : s.faults.pins = none)
    (hnot : ∀ cid, ¬Refused s ((Pass.ensurePins q').after host p false
      ((Pass.ensurePins q).after host p false s)) cid) :
    ∀ pin ∈ s.pins, Unopposed s.faults (Pass.peersFor p q ++ Pass.peersFor p q') pin := by
  obtain ⟨calls, hleft, hcalls⟩ := exists_after host p hs hpins q
  have ht := Pass.distinctCids_after host p false hs (.ensurePins q)
  rw [hleft] at hnot ht
  obtain ⟨more, hleft', hmore⟩ := exists_after host p ht hpins q'
  rw [hleft', pins_moved, moved_moved] at hnot
  intro pin hpin
  have hfirst : Unopposed s.faults (Pass.peersFor p q) pin :=
    unopposed_of_not_refused (hnot pin.cid) fun r hr => by
      rw [callsUntil_moved]
      exact List.mem_append_left _ (hcalls pin hpin r hr)
  rcases hfirst with hfault | hsubset
  · exact .inl hfault
  -- A pin that lacked nothing is the same pin in the second run.
  · have hsame : ensured s.faults false (Pass.peersFor p q) pin = pin :=
      (ensured_of_unopposed (.inr hsubset)).trans (united_of_subset hsubset)
    have hsecond : Unopposed s.faults (Pass.peersFor p q') pin :=
      unopposed_of_not_refused (hnot pin.cid) fun r hr => by
        rw [callsUntil_moved]
        exact List.mem_append_right _ (hmore pin (List.mem_map.2 ⟨pin, hpin, hsame⟩) r hr)
    exact hsecond.imp id fun hsubset' => List.append_subset.2 ⟨hsubset, hsubset'⟩

/-- Two runs that find no pin in their way leave two unions. -/
theorem pins_after_after (hs : s.DistinctCids) (hpins : s.faults.pins = none)
    (h : ∀ pin ∈ s.pins, Unopposed s.faults (Pass.peersFor p q ++ Pass.peersFor p q') pin) :
    ((Pass.ensurePins q').after host p false ((Pass.ensurePins q).after host p false s)).pins
      = s.pins.map fun pin => united (Pass.peersFor p q') (united (Pass.peersFor p q) pin) := by
  obtain ⟨calls, hleft, -⟩ := exists_after host p hs hpins q
  have ht := Pass.distinctCids_after host p false hs (.ensurePins q)
  rw [hleft] at ht ⊢
  obtain ⟨more, hleft', -⟩ := exists_after host p ht hpins q'
  rw [hleft', pins_moved, pins_moved, List.map_map]
  refine List.map_congr_left fun pin hpin => ?_
  have hfirst : Unopposed s.faults (Pass.peersFor p q) pin :=
    (h pin hpin).imp id fun hsubset => (List.append_subset.1 hsubset).1
  have hsecond : Unopposed s.faults (Pass.peersFor p q') (united (Pass.peersFor p q) pin) :=
    (h pin hpin).imp id fun hsubset id hid =>
      mem_allocations_united.2 (.inl ((List.append_subset.1 hsubset).2 hid))
  rw [Function.comp_apply, ensured_of_unopposed hfirst, faults_moved,
    ensured_of_unopposed hsecond]

/-- **Runs for two profiles may change places**: they leave the same peers, and all else as it
was. -/
theorem samePeers_after_after (hs : s.DistinctCids) (hpins : s.faults.pins = none)
    (hnot : ∀ cid, ¬Refused s ((Pass.ensurePins q').after host p false
      ((Pass.ensurePins q).after host p false s)) cid) :
    List.Forall₂ SamePeers
      ((Pass.ensurePins q').after host p false ((Pass.ensurePins q).after host p false s)).pins
      ((Pass.ensurePins q).after host p false
        ((Pass.ensurePins q').after host p false s)).pins := by
  have hboth := unopposed_both host p q q' hs hpins hnot
  have hswapped : ∀ pin ∈ s.pins,
      Unopposed s.faults (Pass.peersFor p q' ++ Pass.peersFor p q) pin :=
    fun pin hpin => (hboth pin hpin).imp id fun hsubset =>
      List.append_subset.2 (List.append_subset.1 hsubset).symm
  rw [pins_after_after host p q q' hs hpins hboth, pins_after_after host p q' q hs hpins hswapped,
    List.forall₂_map_left_iff, List.forall₂_map_right_iff]
  exact List.forall₂_same.2 fun pin _ => samePeers_united _ _ pin

end Commute

/-- **Adding the required peers is a union that loses nothing and converges.**  Every run has an
account that adds up.  One that is refused nothing leaves each pin with the required peers that it
lacked, each once, after those it had; it asks for just the pins that lacked one, and a run after it
asks for nothing.  Runs for two profiles leave the same peers in either order. -/
theorem ensurePins_unites (host : String) (p : Policy) {s : Memory} {profile : String}
    {required : List String} (hs : s.DistinctCids) (hpins : s.faults.pins = none)
    (hrequired : p.requiredFor profile = .ok required) :
    let run (dryRun : Bool) := (ensurePins (cluster host) p profile (.plain dryRun)).run
    let after (q : String) (t : Memory) := (Pass.ensurePins q).after host p false t
    (∀ dryRun, ∃ report, (run dryRun s).1 = .ok report ∧ report.total = s.pins.length ∧
        report.total = report.alreadyCorrect + report.fixed + report.errors) ∧
      ((∀ cid, ¬Refused s (run false s).2 cid) →
        (∃ report, run false s = (.ok report, s.moved (s.pins.map (united required))
            (.pins :: (s.pins.filter (lacks required)).map fun pin =>
              .pin (.ofPin (united required pin)))) ∧
          report.errors = 0 ∧ report.fixed = (s.pins.filter (lacks required)).length) ∧
        (∀ pin ∈ s.pins, required ⊆ pin.allocations →
          lacks required pin = false ∧ united required pin = pin) ∧
        ∀ t : Memory, t.pins = (run false s).2.pins → t.faults.pins = none →
          ∃ again, run false t = (.ok again, t.moved t.pins [.pins]) ∧ again.severity = 0) ∧
      ∀ q q', (∀ cid, ¬Refused s (after q' (after q s)) cid) →
        List.Forall₂ SamePeers (after q' (after q s)).pins (after q (after q' s)).pins := by
  intro run after
  refine ⟨fun dryRun => ?_, fun hnot => ?_, fun q q' =>
    samePeers_after_after host p q q' hs hpins⟩
  · exact ⟨_, congrArg Prod.fst (run_ensurePins hs hrequired hpins), List.length_map _,
      Log.length_eq _⟩
  · have hrun := run_of_unopposed host hs hrequired hpins
      (unopposed_of_run hs hrequired hpins hnot)
    have herrors := congrArg List.length (failures_outcomes required s.pins)
    exact ⟨⟨_, hrun, herrors, count_changed_outcomes required s.pins⟩,
      fun pin _ hsubset => ⟨lacks_eq_false_iff.2 hsubset, united_of_subset hsubset⟩,
      fun t ht htpins => exists_idle_run_of_united hs hrequired
        (ht.trans (congrArg (fun r => r.2.pins) hrun)) htpins⟩

end Migrate

/-- Policy with a second profile, of which the primary node is the backup node. -/
def Sample.doubled : Policy := Sample.policy.addProfile "spare" "beta"

theorem Migrate.ensurePins_unites_sample :
    let run := (ensurePins (Memory.cluster "alpha") Sample.doubled "spare" (.plain false)).run
    let after (q : String) (t : Memory) := (Pass.ensurePins q).after "alpha" Sample.doubled false t
    Sample.memory.DistinctCids ∧ Sample.doubled.requiredFor "spare" = .ok ["B", "B"] ∧
      (∀ cid, ¬Memory.Refused Sample.memory (run Sample.memory).2 cid) ∧
      (run Sample.memory).2.pins.map (·.allocations)
        = [["X", "C", "C", "B"], ["D", "C", "B", "A"], ["D", "B"], ["B", "A"]] ∧
      (∃ again t, run (run Sample.memory).2 = (.ok again, t) ∧ again.severity = 0) ∧
      Sample.doubled.requiredFor "acme" = .ok ["A", "B"] ∧
      List.Forall₂ SamePeers (after "acme" (after "spare" Sample.memory)).pins
        (after "spare" (after "acme" Sample.memory)).pins := by
  intro run after
  have hs : Sample.memory.DistinctCids := by decide
  have hrequired : Sample.doubled.requiredFor "spare" = .ok ["B", "B"] := by decide
  have hnot (t : Memory) (cid : String) : ¬Memory.Refused Sample.memory t cid :=
    Memory.not_refused rfl t
  obtain ⟨-, hunites, hcommute⟩ := ensurePins_unites "alpha" Sample.doubled hs rfl hrequired
  obtain ⟨⟨report, hrun, -, -⟩, -, hagain⟩ := hunites (hnot _)
  obtain ⟨again, hidle, hzero⟩ := hagain _ rfl (congrArg (·.2.faults.pins) hrun)
  have hunion : (Sample.memory.pins.map (united ["B", "B"])).map (·.allocations)
      = [["X", "C", "C", "B"], ["D", "C", "B", "A"], ["D", "B"], ["B", "A"]] := by decide
  exact ⟨hs, hrequired, hnot _,
    (congrArg (fun r => r.2.pins.map (·.allocations)) hrun).trans hunion,
    ⟨again, _, hidle, hzero⟩, by decide, hcommute "spare" "acme" (hnot _)⟩

end PinKeeper
