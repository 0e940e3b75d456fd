import PinKeeper.Proofs.Maintenance.Convergence
import PinKeeper.Proofs.Maintenance.Pass

/-!
# Proofs/Maintenance/Retry — an operation may be tried again

An attempt at an operation may leave some pins written and others not, and a pin with an owner but
without a size.  Each pin that it leaves is one on the way: what a run without faults makes of it is
what such a run would have made of the pin before the attempt (`effect_effect`).  So after any
number of attempts one run without faults leaves what it would have left at once.
-/

namespace PinKeeper

/-- The memory with other faults. -/
def Memory.failing (s : Memory) (f : Faults) : Memory := { s with faults := f }

namespace Pass

open Memory Rebalance Migrate Repair

variable {p : Policy} {s : Memory}

/-- **Every attempt leaves each pin on the way** to what a run without faults makes of it. -/
theorem effect_effect (p : Policy) (s : Memory) (f : Faults) (pin : Pin) : ∀ pass : Pass,
    pass.effect p false (s.failing .none) (pass.effect p false (s.failing f) pin)
      = pass.effect p false (s.failing .none) pin
  | .rebalance => by
    by_cases hattempt : Possible p (s.failing f).faults
    · have hclean : Possible p (s.failing .none).faults := ⟨hattempt.1, rfl, rfl⟩
      have hbounds := (boundsValid_iff.1 hattempt.1).2
      simp only [effect, if_pos hattempt, if_pos hclean]
      exact rebalanced_rebalanced hbounds rfl f
    · simp only [effect, if_neg hattempt]
  | .ensurePins profile => by
    cases hrequired : p.requiredFor profile with
    | error e => simp only [effect, hrequired]
    | ok required =>
      cases hpins : f.pins with
      | some e => simp only [effect, Memory.failing, hrequired, hpins]
      | none =>
        simp only [effect, Memory.failing, hrequired, hpins]
        exact ensured_ensured rfl f
  | .tagPins profile => by
    cases hprofile : p.profile profile with
    | none => simp only [effect, hprofile]
    | some q =>
      cases hpins : f.pins with
      | some e => simp only [effect, Memory.failing, hprofile, hpins]
      | none =>
        simp only [effect, Memory.failing, hprofile, hpins]
        exact taggedBy_taggedBy rfl rfl f
  | .repair => by
    cases hpins : f.pins with
    | some e => simp only [effect, Memory.failing, hpins]
    | none =>
      simp only [effect, Memory.failing, hpins]
      exact repaired_repaired rfl f

/-- Memory after an attempt at an operation. -/
def attempt (host : String) (p : Policy) (pass : Pass) (s : Memory) (f : Faults) : Memory :=
  pass.after host p false (s.failing f)

theorem pins_attempt (host : String) (p : Policy) (hs : s.DistinctCids) (pass : Pass) (f : Faults) :
    (pass.attempt host p s f).pins
      = s.pins.map fun pin => pass.effect p false (s.failing f) pin := by
  have hfailing : (s.failing f).DistinctCids := hs
  exact pins_after host p false hfailing pass

theorem distinctCids_attempt (host : String) (p : Policy) (hs : s.DistinctCids) (pass : Pass)
    (f : Faults) : (pass.attempt host p s f).DistinctCids := by
  have hfailing : (s.failing f).DistinctCids := hs
  exact distinctCids_after host p false hfailing pass

/-- An attempt leaves what a later run goes by. -/
theorem effect_attempt (host : String) (p : Policy) (hs : s.DistinctCids) (pass : Pass)
    (f f' : Faults) (pin : Pin) :
    pass.effect p false ((pass.attempt host p s f).failing f') pin
      = pass.effect p false (s.failing f') pin := by
  have hfailing : (s.failing f).DistinctCids := hs
  obtain ⟨calls, hafter, -⟩ := leaves_after host p false hfailing pass
  rw [attempt, hafter]
  cases pass <;> rfl

/-- **An attempt is no matter to a run without faults.** -/
theorem pins_attempt_attempt (host : String) (p : Policy) (hs : s.DistinctCids) (pass : Pass)
    (f : Faults) : (pass.attempt host p (pass.attempt host p s f) .none).pins
      = (pass.attempt host p s .none).pins := by
  rw [pins_attempt host p (distinctCids_attempt host p hs pass f), pins_attempt host p hs,
    pins_attempt host p hs, List.map_map]
  refine List.map_congr_left fun pin _ => ?_
  rw [Function.comp_apply, effect_attempt host p hs, effect_effect]

/-- **Retrying is safe.**  After any attempts, of which any calls may have failed, a run without
faults leaves the pins that it would have left in their stead. -/
theorem pins_retry (host : String) (p : Policy) (hs : s.DistinctCids) (pass : Pass)
    (attempts : List Faults) :
    (pass.attempt host p (attempts.foldl (pass.attempt host p) s) .none).pins
      = (pass.attempt host p s .none).pins := by
  induction attempts generalizing s with
  | nil => rfl
  | cons f attempts ih =>
    rw [List.foldl_cons, ih (distinctCids_attempt host p hs pass f)]
    exact pins_attempt_attempt host p hs pass f

theorem pins_retry_sample :
    let attempts := [{ Faults.none with dagSize := fun _ => some (.api 504 "gateway timeout") },
      Sample.refusing "few", { Faults.none with pins := some (.api 500 "no quorum") }]
    let attempt := (tagPins "acme").attempt "alpha" Sample.policy
    Sample.memory.DistinctCids ∧
      (attempt (attempts.foldl attempt Sample.memory) .none).pins
        = (attempt Sample.memory .none).pins :=
  ⟨by decide, pins_retry "alpha" Sample.policy (by decide) (tagPins "acme") _⟩

end Pass

end PinKeeper
