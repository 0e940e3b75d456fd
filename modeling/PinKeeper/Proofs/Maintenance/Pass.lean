import PinKeeper.Proofs.Maintenance.Migrate
import PinKeeper.Proofs.Maintenance.Rebalance
import PinKeeper.Proofs.Maintenance.Repair

/-!
# Proofs/Maintenance/Pass — four passes, one shape

Rebalancing, adding required peers, adding tags and repairing have each been said in closed form.
What a history of them has to know is less, and the same for all (`leaves_after`): a pass replaces
each pin by what it makes of that pin (`Pass.effect`), which depends on the faults and on what the
cluster answers, and touches nothing else of a memory but the record of calls.

No two calls of a pass are of one kind and about one identifier.  So the faults, which go by just
that, can let any of the calls fail and any other succeed.
-/

namespace PinKeeper

open Memory Rebalance Migrate Repair

/-- A pass over all pins. -/
inductive Pass where
  | rebalance
  | ensurePins (profile : String)
  | tagPins (profile : String)
  | repair

namespace Pass

/-- Memory after a pass without pauses of which nobody takes note. -/
def after (host : String) (p : Policy) (dryRun : Bool) (s : Memory) : Pass → Memory
  | .rebalance => (Rebalance.run host p dryRun).run s |>.2
  | .ensurePins profile => (Migrate.ensurePins (cluster host) p profile (.plain dryRun)).run s |>.2
  | .tagPins profile => (Migrate.tagPins (cluster host) p profile (.plain dryRun)).run s |>.2
  | .repair => (Repair.repair (cluster host) p (.plain dryRun)).run s |>.2

/-- What a pass makes of a pin; nothing else if it does not come to the pins. -/
def effect (p : Policy) (dryRun : Bool) (s : Memory) (pin : Pin) : Pass → Pin
  | .rebalance =>
    if Possible p s.faults then rebalanced s.faults p (.ofPolicy p s.freeSpace) dryRun pin else pin
  | .ensurePins profile =>
    match p.requiredFor profile, s.faults.pins with
    | .ok required, none => ensured s.faults dryRun required pin
    | _, _ => pin
  | .tagPins profile =>
    match p.profile profile, s.faults.pins with
    | some _, none => taggedBy s.faults s.dagSizes profile dryRun pin
    | _, _ => pin
  | .repair =>
    match s.faults.pins with
    | none => repaired s.faults s.healOnRecover p dryRun pin
    | some _ => pin

/-- One memory leaves another that differs in its pins, by `effect`, and in calls of which no two
are of one kind and about one thing. -/
def Leaves (s t : Memory) (effect : Pin → Pin) : Prop :=
  ∃ calls, t = s.moved (s.pins.map effect) calls ∧ (calls.map (·.key)).Nodup

section Leaves

variable {s : Memory} {β : Type} {step : Pin → StateM Memory β} {answer : Pin → β}
  {effect : Pin → Pin} {calls : Pin → List Call}

theorem leaves_of_inPlace (h : InPlace s step answer effect calls) (hs : s.DistinctCids)
    (log : List Call) (hnone : ∀ x ∈ log, x.subject = none) (hlog : (log.map (·.key)).Nodup) :
    Leaves s (s.moved (s.pins.map effect) (log ++ s.pins.flatMap calls)) effect :=
  ⟨_, rfl, h.nodup_keys hs hnone hlog⟩

theorem leaves_self : Leaves s s fun pin => pin :=
  ⟨[], by rw [List.map_id', moved_self], .nil⟩

theorem leaves_of_calls {log : List Call} (hlog : (log.map (·.key)).Nodup) :
    Leaves s (s.moved s.pins log) fun pin => pin :=
  ⟨log, by rw [List.map_id'], hlog⟩

end Leaves

variable (host : String) (p : Policy) (dryRun : Bool) {s : Memory}

theorem leaves_rebalance (hs : s.DistinctCids) :
    Leaves s (rebalance.after host p dryRun s) fun pin => rebalance.effect p dryRun s pin := by
  by_cases h : Possible p s.faults
  · simp only [effect, if_pos h]
    rw [after, run_of_possible dryRun host hs h]
    exact leaves_of_inPlace (settle_inPlace host s) hs [.freeSpace, .pins] (by decide) (by decide)
  · obtain ⟨e, calls, hrun, hcalls⟩ := run_of_not_possible dryRun host h
    simp only [effect, if_neg h]
    rw [after, hrun]
    exact leaves_of_calls ((hcalls.map _).nodup (by decide))

theorem leaves_ensurePins (hs : s.DistinctCids) (profile : String) :
    Leaves s ((ensurePins profile).after host p dryRun s)
      fun pin => (ensurePins profile).effect p dryRun s pin := by
  cases hrequired : p.requiredFor profile with
  | error e =>
    simp only [effect, hrequired]
    rw [after, run_ensurePins_of_error hrequired]
    exact leaves_self
  | ok required =>
    cases hpins : s.faults.pins with
    | some e =>
      simp only [effect, hrequired, hpins]
      rw [after, run_ensurePins_of_unlisted hrequired hpins]
      exact leaves_of_calls (by decide)
    | none =>
      simp only [effect, hrequired, hpins]
      rw [after, run_ensurePins hs hrequired hpins]
      exact leaves_of_inPlace (ensurePin_inPlace host s) hs [.pins] (by decide) (by decide)

theorem leaves_tagPins (hs : s.DistinctCids) (profile : String) :
    Leaves s ((tagPins profile).after host p dryRun s)
      fun pin => (tagPins profile).effect p dryRun s pin := by
  cases hprofile : p.profile profile with
  | none =>
    simp only [effect, hprofile]
    rw [after, run_tagPins_of_unknown hprofile]
    exact leaves_self
  | some q =>
    have hsome : (p.profile profile).isSome = true := by rw [hprofile, Option.isSome_some]
    cases hpins : s.faults.pins with
    | some e =>
      simp only [effect, hprofile, hpins]
      rw [after, run_tagPins_of_unlisted hsome hpins]
      exact leaves_of_calls (by decide)
    | none =>
      simp only [effect, hprofile, hpins]
      rw [after, run_tagPins hs hsome hpins]
      exact leaves_of_inPlace (tagPin_inPlace host s) hs [.pins] (by decide) (by decide)

theorem leaves_repair (hs : s.DistinctCids) :
    Leaves s (repair.after host p dryRun s) fun pin => repair.effect p dryRun s pin := by
  cases hpins : s.faults.pins with
  | some e =>
    simp only [effect, hpins]
    rw [after, run_repair_of_unlisted hpins]
    exact leaves_of_calls (by decide)
  | none =>
    simp only [effect, hpins]
    rw [after, run_repair hs hpins]
    exact leaves_of_inPlace (repairPin_inPlace host s) hs [.pins] (by decide) (by decide)

/-- **A pass replaces each pin by what it makes of that pin**, asks for nothing twice and touches
nothing else. -/
theorem leaves_after (hs : s.DistinctCids) : ∀ pass : Pass,
    Leaves s (pass.after host p dryRun s) fun pin => pass.effect p dryRun s pin
  | .rebalance => leaves_rebalance host p dryRun hs
  | .ensurePins profile => leaves_ensurePins host p dryRun hs profile
  | .tagPins profile => leaves_tagPins host p dryRun hs profile
  | .repair => leaves_repair host p dryRun hs

/-- A pass keeps the identifiers. -/
theorem cid_effect (s : Memory) (pin : Pin) : ∀ pass : Pass,
    (pass.effect p dryRun s pin).cid = pin.cid
  | .rebalance => by
    rw [effect]
    split
    · exact cid_asked _ _ pin
    · rfl
  | .ensurePins profile => by
    rw [effect]
    split
    · exact cid_asked _ _ pin
    · rfl
  | .tagPins profile => by
    rw [effect]
    split
    · exact cid_asked _ _ pin
    · rfl
  | .repair => by
    rw [effect]
    split
    · exact cid_repaired
    · rfl

theorem pins_after (hs : s.DistinctCids) (pass : Pass) :
    (pass.after host p dryRun s).pins = s.pins.map fun pin => pass.effect p dryRun s pin := by
  obtain ⟨calls, hafter, -⟩ := leaves_after host p dryRun hs pass
  rw [hafter, pins_moved]

theorem distinctCids_after (hs : s.DistinctCids) (pass : Pass) :
    (pass.after host p dryRun s).DistinctCids := by
  rw [DistinctCids, pins_after host p dryRun hs, List.map_map]
  rw [DistinctCids] at hs
  convert hs using 2
  exact funext fun pin => cid_effect p dryRun s pin pass

end Pass

end PinKeeper
