import PinKeeper.Proofs.Maintenance.Union
import PinKeeper.Proofs.Pin.Wire
import PinKeeper.Proofs.Text.Decimal

/-!
# Proofs/Maintenance/Tags — adding tags fills gaps

A run that adds tags gives a pin an owner if it has none, and a size if it has none and the cluster
tells it.  Nothing else of a pin changes, and a pin whose request fails does not change at all
(`Gains`).  The size is asked for exactly once for each pin that has none (`sized_flatMap`), and a
pin for which nothing was found is not asked for (`exists_request_iff`).

A pin with both tags is left alone (`Complete`).  A run in which nothing fails leaves only such
pins, so a run after it, for whichever profile, does nothing but list them
(`exists_idle_run_of_complete`).
-/

namespace PinKeeper

/-- Identifier of which the size is asked for. -/
def Call.sized? : Call → Option String
  | .dagSize cid => some cid
  | _ => none

/-- A size was asked for between two states, and the cluster did not tell it. -/
def Memory.Untold (s t : Memory) (cid : String) : Prop :=
  Call.dagSize cid ∈ s.callsUntil t ∧ ∃ e, sizeBelow s.faults s.dagSizes cid = .error e

namespace Migrate

open Memory

/-! ## A pin -/

/-- Metadata with an owner where the pin had none, with a size if one is given, and otherwise that
of the pin. -/
structure Filled (profile : String) (size : Option Nat) (pin : Pin) (metadata : Dict String) :
    Prop where
  org : metadata.find? orgKey
    = if pin.org.isNone then some profile else pin.metadata.find? orgKey
  size : metadata.find? sizeKey
    = size.elim (pin.metadata.find? sizeKey) fun n => some (Text.natural n)
  other : ∀ k, k ≠ orgKey → k ≠ sizeKey → metadata.find? k = pin.metadata.find? k

/-- A pin has an owner and a size. -/
def Complete (pin : Pin) : Prop := pin.org.isSome = true ∧ pin.sizeTag.isSome = true

/-- What a run makes of a pin: nothing if the request for it fails, and else one that has the owner
and the size which it lacked, as far as they are known. -/
structure Gains (f : Faults) (sizes : Dict Nat) (profile : String) (pin pin' : Pin) : Prop where
  frame : { pin' with metadata := pin.metadata } = pin
  filled : f.pin pin.cid = none → Filled profile (sizeFor f sizes pin) pin pin'.metadata
  kept : (f.pin pin.cid).isSome = true → pin' = pin

section Pin

variable {f : Faults} {sizes : Dict Nat} {profile : String} {size : Option Nat} {pin : Pin}

theorem filled_tagged (profile : String) (size : Option Nat) (pin : Pin) :
    Filled profile size pin (tagged pin profile size) where
  org := find?_tagged_orgKey
  size := find?_tagged_sizeKey
  other _ := find?_tagged_of_ne

/-- **A size comes to be known if there is no size tag and the cluster tells it.** -/
theorem sizeFor_eq_some_iff {n : Nat} :
    sizeFor f sizes pin = some n ↔ pin.sizeTag = none ∧ sizeBelow f sizes pin.cid = .ok n := by
  rw [sizeFor]
  cases pin.sizeTag with
  | some tag => simp
  | none => cases sizeBelow f sizes pin.cid <;> simp [Except.toOption]

theorem natural_ne_empty (n : Nat) : Text.natural n ≠ "" := fun h =>
  Text.digits_ne_nil n (String.ofList_inj.1 h)

/-- **A pin that was filled in is complete**, if its size was not left open. -/
theorem Filled.complete {metadata : Dict String} (h : Filled profile size pin metadata)
    (hprofile : profile ≠ "") (hsize : pin.sizeTag.isSome = true ∨ size.isSome = true) :
    Complete { pin with metadata := metadata } := by
  constructor
  · rw [Pin.org, h.org]
    split
    · rw [nonEmpty?_eq_self fun h => hprofile (Option.some.inj h)]
      rfl
    · next horg => exact Option.isSome_iff_ne_none.2 fun h => horg (Option.isNone_iff_eq_none.2 h)
  · rw [Pin.sizeTag, h.size]
    cases size with
    | none => exact hsize.resolve_right Bool.false_ne_true
    | some n =>
      rw [Option.elim_some, nonEmpty?_eq_self fun h => natural_ne_empty n (Option.some.inj h)]
      rfl

/-- **There is nothing to ask for if the pin has an owner and no size came to be known.** -/
theorem tagRequest?_eq_none_iff : tagRequest? f sizes profile pin = none ↔
    pin.org.isSome = true ∧ sizeFor f sizes pin = none := by
  rw [← Option.isNone_iff_eq_none (o := sizeFor f sizes pin), ← Bool.and_eq_true, tagRequest?]
  split
  · next h => exact iff_of_true rfl h
  · next h => exact iff_of_false (Option.some_ne_none _) h

theorem Complete.sizeFor_eq_none (h : Complete pin) : sizeFor f sizes pin = none := if_pos h.2

theorem Complete.tagRequest?_eq_none (h : Complete pin) : tagRequest? f sizes profile pin = none :=
  tagRequest?_eq_none_iff.2 ⟨h.1, h.sizeFor_eq_none⟩

/-- **A complete pin is left alone.** -/
theorem Complete.taggedBy_eq (h : Complete pin) : taggedBy f sizes profile false pin = pin := by
  rw [taggedBy, h.tagRequest?_eq_none]
  rfl

theorem Complete.tagCalls_eq (h : Complete pin) : tagCalls f sizes profile false pin = [] := by
  rw [tagCalls, sizeCalls, if_pos h.2, h.tagRequest?_eq_none]
  rfl

theorem Complete.tagOutcome_eq (h : Complete pin) :
    tagOutcome f sizes profile false pin = .untouched :=
  if_pos (Bool.and_eq_true_iff.2 h)

theorem cid_of_mem_tagRequest? {r : PinRequest} (h : r ∈ tagRequest? f sizes profile pin) :
    r.cid = pin.cid := by
  have hr : r ∈ made false (tagRequest? f sizes profile pin) := h
  exact congrArg (·.cid) (eq_of_mem_tagRequest? hr)

theorem gains_taggedBy (f : Faults) (sizes : Dict Nat) (profile : String) (pin : Pin) :
    Gains f sizes profile pin (taggedBy f sizes profile false pin) where
  frame := by
    rcases taggedBy_eq_or f sizes profile false pin with heq | heq <;> rw [heq]
  filled h := by
    rw [taggedBy_of_no_fault h]
    exact filled_tagged profile _ pin
  kept h := by
    cases hr : tagRequest? f sizes profile pin with
    | none =>
      rw [taggedBy, hr]
      rfl
    | some r =>
      rw [taggedBy, hr, made, if_neg Bool.false_ne_true, asked, Option.elim_some, served,
        cid_of_mem_tagRequest? hr, if_pos h]

/-- What is asked about a pin is answered: its size if it has none, and the request for it if one is
made. -/
def Unhindered (f : Faults) (sizes : Dict Nat) (pin : Pin) : Prop :=
  (pin.sizeTag = none → ∃ n, sizeBelow f sizes pin.cid = .ok n) ∧
    (¬Complete pin → f.pin pin.cid = none)

theorem complete_taggedBy (hprofile : profile ≠ "") (h : Unhindered f sizes pin) :
    Complete (taggedBy f sizes profile false pin) := by
  by_cases hcomplete : Complete pin
  · rwa [hcomplete.taggedBy_eq]
  · rw [taggedBy_of_no_fault (h.2 hcomplete)]
    refine (filled_tagged profile _ pin).complete hprofile ?_
    cases htag : pin.sizeTag with
    | some tag => exact .inl rfl
    | none =>
      obtain ⟨n, hn⟩ := h.1 htag
      rw [sizeFor_eq_some_iff.2 ⟨htag, hn⟩]
      exact .inr rfl

end Pin

/-! ## A run -/

section Calls

variable {f : Faults} {sizes : Dict Nat} {profile : String} {dryRun : Bool} {pin : Pin}

theorem pin_mem_tagCalls_iff {r : PinRequest} : Call.pin r ∈ tagCalls f sizes profile dryRun pin
    ↔ r ∈ made dryRun (tagRequest? f sizes profile pin) := by
  have hsize : Call.pin r ∉ sizeCalls pin := by
    rw [sizeCalls]
    split <;> simp
  rw [tagCalls, List.mem_append, or_iff_right hsize,
    List.mem_map_of_injective fun _ _ h => Call.pin.inj h, Option.mem_toList, Option.mem_def]

theorem dagSize_mem_tagCalls (h : pin.sizeTag = none) :
    Call.dagSize pin.cid ∈ tagCalls f sizes profile dryRun pin := by
  rw [tagCalls, sizeCalls, h]
  exact List.mem_append_left _ (List.mem_singleton_self _)

theorem filterMap_sized?_tagCalls : (tagCalls f sizes profile dryRun pin).filterMap Call.sized?
    = if pin.sizeTag.isNone then [pin.cid] else [] := by
  rw [tagCalls, sizeCalls, List.filterMap_append]
  cases pin.sizeTag <;> cases made dryRun (tagRequest? f sizes profile pin) <;> rfl

/-- **The size is asked for once for each pin without a size tag**, and for no other. -/
theorem sized_flatMap (f : Faults) (sizes : Dict Nat) (profile : String) (dryRun : Bool)
    (pins : List Pin) : (pins.flatMap (tagCalls f sizes profile dryRun)).filterMap Call.sized?
      = (pins.filter fun pin => pin.sizeTag.isNone).map (·.cid) := by
  induction pins with
  | nil => rfl
  | cons pin pins ih =>
    rw [List.flatMap_cons, List.filterMap_append, ih, filterMap_sized?_tagCalls, List.filter_cons]
    split <;> rfl

end Calls

section Run

variable (host : String) {p : Policy} {s : Memory} {profile : String}

theorem callsUntil_run (hs : s.DistinctCids) (hprofile : (p.profile profile).isSome = true)
    (hpins : s.faults.pins = none) :
    s.callsUntil ((tagPins (cluster host) p profile (.plain false)).run s).2
      = .pins :: s.pins.flatMap (tagCalls s.faults s.dagSizes profile false) := by
  rw [run_tagPins hs hprofile hpins, callsUntil_moved]

/-- Calls about a pin are among those of the run. -/
theorem mem_callsUntil_run (hs : s.DistinctCids) (hprofile : (p.profile profile).isSome = true)
    (hpins : s.faults.pins = none) {pin : Pin} (hpin : pin ∈ s.pins) {x : Call}
    (hx : x ∈ tagCalls s.faults s.dagSizes profile false pin) :
    x ∈ s.callsUntil ((tagPins (cluster host) p profile (.plain false)).run s).2 := by
  rw [callsUntil_run host hs hprofile hpins]
  exact List.mem_cons_of_mem _ (List.mem_flatMap.2 ⟨pin, hpin, hx⟩)

/-- **A pin is asked for exactly if there is something to add to it.** -/
theorem exists_request_iff (hs : s.DistinctCids) (hprofile : (p.profile profile).isSome = true)
    (hpins : s.faults.pins = none) {pin : Pin} (hpin : pin ∈ s.pins) :
    (∃ r, Call.pin r ∈ s.callsUntil ((tagPins (cluster host) p profile (.plain false)).run s).2 ∧
        r.cid = pin.cid) ↔
      pin.org = none ∨ (sizeFor s.faults s.dagSizes pin).isSome = true := by
  have hsome : pin.org = none ∨ (sizeFor s.faults s.dagSizes pin).isSome = true ↔
      tagRequest? s.faults s.dagSizes profile pin ≠ none := by
    rw [Ne, tagRequest?_eq_none_iff, not_and_or, Option.not_isSome_iff_eq_none,
      Option.isSome_iff_ne_none]
  rw [hsome, Option.ne_none_iff_exists']
  constructor
  · rintro ⟨r, hr, hcid⟩
    rw [callsUntil_run host hs hprofile hpins] at hr
    obtain ⟨pin', hpin', hr⟩ := List.mem_flatMap.1 ((List.mem_cons.1 hr).resolve_left (nomatch ·))
    have hr : r ∈ tagRequest? s.faults s.dagSizes profile pin' := pin_mem_tagCalls_iff.1 hr
    have hsame : pin' = pin :=
      List.inj_on_of_nodup_map hs hpin' hpin ((cid_of_mem_tagRequest? hr).symm.trans hcid)
    exact ⟨r, hsame ▸ hr⟩
  · rintro ⟨r, hr⟩
    exact ⟨r, mem_callsUntil_run host hs hprofile hpins hpin (pin_mem_tagCalls_iff.2 hr),
      cid_of_mem_tagRequest? hr⟩

/-- Where nothing that a run asked failed, nothing stood in its way. -/
theorem unhindered_of_run (hs : s.DistinctCids) (hprofile : (p.profile profile).isSome = true)
    (hpins : s.faults.pins = none)
    (h : ∀ cid, let t := ((tagPins (cluster host) p profile (.plain false)).run s).2
      ¬Refused s t cid ∧ ¬Untold s t cid) :
    ∀ pin ∈ s.pins, Unhindered s.faults s.dagSizes pin := by
  intro pin hpin
  have htold : pin.sizeTag = none → ∃ n, sizeBelow s.faults s.dagSizes pin.cid = .ok n := by
    intro htag
    cases hsize : sizeBelow s.faults s.dagSizes pin.cid with
    | ok n => exact ⟨n, rfl⟩
    | error e =>
      have hasked := mem_callsUntil_run host hs hprofile hpins hpin
        (dagSize_mem_tagCalls htag)
      exact absurd ⟨hasked, e, hsize⟩ (h pin.cid).2
  refine ⟨htold, fun hcomplete => ?_⟩
  by_contra hfault
  have hneeded : pin.org = none ∨ (sizeFor s.faults s.dagSizes pin).isSome = true := by
    cases htag : pin.sizeTag with
    | some tag => exact .inl (Option.not_isSome_iff_eq_none.1 fun horg =>
        hcomplete ⟨horg, Option.isSome_iff_exists.2 ⟨tag, htag⟩⟩)
    | none =>
      obtain ⟨n, hn⟩ := htold htag
      exact .inr (Option.isSome_iff_exists.2 ⟨n, sizeFor_eq_some_iff.2 ⟨htag, hn⟩⟩)
  obtain ⟨r, hr, hcid⟩ := (exists_request_iff host hs hprofile hpins hpin).2 hneeded
  exact (h pin.cid).1 ⟨r, hr, hcid, Option.isSome_iff_ne_none.2 hfault⟩

/-- **A run over complete pins** lists them, and does nothing else. -/
theorem exists_idle_run_of_complete (hs : s.DistinctCids)
    (hprofile : (p.profile profile).isSome = true) (hpins : s.faults.pins = none)
    (h : ∀ pin ∈ s.pins, Complete pin) :
    ∃ report, (tagPins (cluster host) p profile (.plain false)).run s
        = (.ok report, s.moved s.pins [.pins]) ∧
      report.skipped = s.pins.length ∧ report.tagged = 0 ∧ report.errors = 0 := by
  have houtcomes : (s.pins.map fun pin =>
      (pin.cid, tagOutcome s.faults s.dagSizes profile false pin))
        = s.pins.map fun pin => (pin.cid, Outcome.untouched) :=
    List.map_congr_left fun pin hpin => by rw [(h pin hpin).tagOutcome_eq]
  have hsame : s.pins.map (taggedBy s.faults s.dagSizes profile false) = s.pins :=
    (List.map_congr_left fun pin hpin => (h pin hpin).taggedBy_eq).trans s.pins.map_id
  have hcalls : s.pins.flatMap (tagCalls s.faults s.dagSizes profile false) = [] :=
    List.flatMap_eq_nil_iff.2 fun pin hpin => (h pin hpin).tagCalls_eq
  refine ⟨_, by rw [run_tagPins hs hprofile hpins, houtcomes, hsame, hcalls], ?_⟩
  have hskipped : Log.count .untouched (s.pins.map fun pin => (pin.cid, Outcome.untouched))
      = s.pins.length := by
    rw [Log.count, List.filter_eq_self.2 (by simp), List.length_map]
  have hsum := Log.length_eq (s.pins.map fun pin => (pin.cid, Outcome.untouched))
  rw [List.length_map, hskipped] at hsum
  refine ⟨hskipped, ?_, ?_⟩
  · change Log.count .changed _ = 0
    omega
  · change (Log.failures _).length = 0
    omega

end Run

/-- **A run that adds tags only fills gaps.**  A pin for which the request does not fail gets the
owner and the size that it lacked, as far as the cluster tells the size, and all else stays as it
was.  The size is asked for once for each pin without one.  A pin is asked for exactly if there is
something to add to it, and each pin is counted once.  After a run in which nothing failed, a run
for any profile only lists the pins. -/
theorem tagPins_fills_gaps (host : String) (p : Policy) {s : Memory} {profile : String}
    (hs : s.DistinctCids) (hpins : s.faults.pins = none)
    (hprofile : (p.profile profile).isSome = true) (hname : profile ≠ "") :
    let run := (tagPins (cluster host) p profile (.plain false)).run s
    List.Forall₂ (Gains s.faults s.dagSizes profile) s.pins run.2.pins ∧
      (s.callsUntil run.2).filterMap Call.sized?
        = (s.pins.filter fun pin => pin.sizeTag.isNone).map (·.cid) ∧
      (∀ pin ∈ s.pins, (∃ r, Call.pin r ∈ s.callsUntil run.2 ∧ r.cid = pin.cid) ↔
        pin.org = none ∨ (sizeFor s.faults s.dagSizes pin).isSome = true) ∧
      (∃ report, run.1 = .ok report ∧ report.total = s.pins.length ∧
        report.total = report.tagged + report.skipped + report.errors) ∧
      ((∀ cid, ¬Refused s run.2 cid ∧ ¬Untold s run.2 cid) →
        ∀ host' p' q (t : Memory), (p'.profile q).isSome = true → t.pins = run.2.pins →
          t.faults.pins = none →
            ∃ again, (tagPins (cluster host') p' q (.plain false)).run t
                = (.ok again, t.moved t.pins [.pins]) ∧
              again.skipped = s.pins.length ∧ again.tagged = 0 ∧ again.errors = 0) := by
  intro run
  have hrun : (tagPins (cluster host) p profile (.plain false)).run s = _ :=
    run_tagPins hs hprofile hpins
  have hleft : run.2.pins = s.pins.map (taggedBy s.faults s.dagSizes profile false) :=
    congrArg (·.2.pins) hrun
  refine ⟨?_, ?_, fun pin hpin => exists_request_iff host hs hprofile hpins hpin, ?_, ?_⟩
  · rw [hleft, List.forall₂_map_right_iff]
    exact List.forall₂_same.2 fun pin _ => gains_taggedBy _ _ profile pin
  · rw [callsUntil_run host hs hprofile hpins]
    exact sized_flatMap s.faults s.dagSizes profile false s.pins
  · refine ⟨_, congrArg Prod.fst hrun, List.length_map _, ?_⟩
    exact (Log.length_eq _).trans (congrArg (· + _) (Nat.add_comm _ _))
  · intro hnot host' p' q t hq ht htpins
    have hcomplete : ∀ pin ∈ t.pins, Complete pin := by
      rw [ht, hleft]
      intro pin' hpin'
      obtain ⟨pin, hpin, rfl⟩ := List.mem_map.1 hpin'
      exact complete_taggedBy hname (unhindered_of_run host hs hprofile hpins hnot pin hpin)
    have hlength : t.pins.length = s.pins.length := by rw [ht, hleft, List.length_map]
    have hdistinct : t.DistinctCids := by
      rw [DistinctCids, ht, hleft, (tagPin_inPlace host s).map_cid_effect]
      exact hs
    rw [← hlength]
    exact exists_idle_run_of_complete host' hdistinct hq htpins hcomplete

end Migrate

/-- Cluster that tells the size of each of its pins. -/
def Sample.sized : Memory :=
  { Sample.memory with dagSizes := .ofList [("astray", 7), ("few", 42), ("many", 0), ("right", 9)] }

theorem Migrate.tagPins_fills_gaps_sample :
    let run (p : Policy) (profile : String) :=
      (tagPins (Memory.cluster "alpha") p profile (.plain false)).run
    let t := (run Sample.policy "acme" Sample.sized).2
    Sample.sized.DistinctCids ∧ (Sample.policy.profile "acme").isSome = true ∧
      (∀ cid, ¬Memory.Refused Sample.sized t cid ∧ ¬Memory.Untold Sample.sized t cid) ∧
      t.pins.map (fun pin => (pin.org, pin.sizeTag))
        = [(some "acme", some "7"), (some "acme", some "0"), (some "acme", some "42"),
          (some "acme", some "9")] ∧
      List.Forall₂ (Gains Sample.sized.faults Sample.sized.dagSizes "acme") Sample.sized.pins
        t.pins ∧
      (Sample.doubled.profile "spare").isSome = true ∧
      ∃ again, run Sample.doubled "spare" t = (.ok again, t.moved t.pins [.pins]) ∧
        again.skipped = 4 := by
  intro run t
  have hs : Sample.sized.DistinctCids := by decide
  have hprofile : (Sample.policy.profile "acme").isSome = true := by decide
  obtain ⟨hgains, hsized, -, -, hagain⟩ :=
    tagPins_fills_gaps "alpha" Sample.policy hs rfl hprofile (by decide)
  have htold : ∀ cid ∈ ["astray", "many", "few", "right"],
      (Memory.sizeBelow Sample.sized.faults Sample.sized.dagSizes cid).isOk = true := by decide
  have hnot (cid : String) :
      ¬Memory.Refused Sample.sized t cid ∧ ¬Memory.Untold Sample.sized t cid := by
    refine ⟨Memory.not_refused rfl t, ?_⟩
    rintro ⟨hcall, e, he⟩
    have hasked : cid ∈ (Sample.sized.callsUntil t).filterMap Call.sized? :=
      List.mem_filterMap.2 ⟨_, hcall, rfl⟩
    have hok := htold cid ((congrArg (cid ∈ ·) hsized).mp hasked)
    rw [he] at hok
    cases hok
  obtain ⟨again, hidle, hskipped, -⟩ :=
    hagain hnot "alpha" Sample.doubled "spare" t (by decide) rfl rfl
  exact ⟨hs, hprofile, hnot, by decide +kernel, hgains, by decide, again, hidle, hskipped⟩

end PinKeeper
