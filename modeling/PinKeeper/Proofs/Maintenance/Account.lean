import PinKeeper.Proofs.Maintenance.Pass

/-!
# Proofs/Maintenance/Account — what a pass answers

A pass answers with its account, or with what kept it from the pins (`Pass.obstacle`): the policy
has not what the pass goes by, or the cluster did not tell what it has to know first.  With that,
the four passes are said as one: kept from the pins, a pass has made its inquiries and leaves all as
it was (`run_of_obstacle`); else it has an account of the pins, each of which it has come to with
the calls about it (`run_of_clear`).
-/

namespace PinKeeper

open Memory Rebalance Migrate Repair

/-- Account of a pass. -/
inductive Account where
  | rebalance (report : Rebalance.Report)
  | ensurePins (report : EnsureReport)
  | tagPins (report : TagReport)
  | repair (report : Repair.Report)
deriving DecidableEq, Repr

/-- Exit code of a pass with an account. -/
def Account.severity : Account → Nat
  | .rebalance r => r.severity
  | .ensurePins r => r.severity
  | .tagPins r => r.severity
  | .repair r => r.severity

namespace Pass

/-- Runs a pass without pauses of which nobody takes note. -/
def run (host : String) (p : Policy) (dryRun : Bool) :
    Pass → StateM Memory (Except Failure Account)
  | .rebalance => return (← Rebalance.run host p dryRun).map .rebalance
  | .ensurePins profile =>
    return (← Migrate.ensurePins (cluster host) p profile (.plain dryRun)).map .ensurePins
  | .tagPins profile =>
    return (← Migrate.tagPins (cluster host) p profile (.plain dryRun)).map .tagPins
  | .repair =>
    return ((← Repair.repair (cluster host) p (.plain dryRun)).mapError .transport).map .repair

/-! ## What keeps a pass from the pins -/

/-- What keeps a pass from the pins: the policy, the free space or the listing. -/
def obstacle (p : Policy) (f : Faults) : Pass → Option Failure
  | .rebalance =>
    if boundsValid p then (f.freeSpace.or f.pins).map .transport else some (boundsFailure p)
  | .ensurePins profile =>
    match p.requiredFor profile with
    | .error e => some (.allocation e)
    | .ok _ => f.pins.map .transport
  | .tagPins profile =>
    if (p.profile profile).isSome then f.pins.map .transport else some (unknownProfile profile)
  | .repair => f.pins.map .transport

/-- Calls of a pass before it comes to the pins. -/
def inquiries (p : Policy) (f : Faults) : Pass → List Call
  | .rebalance =>
    if boundsValid p then if f.freeSpace.isSome then [.freeSpace] else [.freeSpace, .pins] else []
  | .ensurePins profile => if (p.requiredFor profile).toOption.isSome then [.pins] else []
  | .tagPins profile => if (p.profile profile).isSome then [.pins] else []
  | .repair => [.pins]

/-- Peers that a profile requires, of which there are none if the policy lacks one. -/
def peersFor (p : Policy) (profile : String) : List String :=
  (p.requiredFor profile).toOption.getD []

/-- Account of a pass that comes to the pins. -/
def account (p : Policy) (dryRun : Bool) (s : Memory) : Pass → Account
  | .rebalance =>
    .rebalance (.ofSettled (.ofPolicy p s.freeSpace) dryRun
      (s.pins.map (settledBy s.faults p (.ofPolicy p s.freeSpace) dryRun)))
  | .ensurePins profile =>
    .ensurePins (.ofLog (peersFor p profile) dryRun (s.pins.map fun pin =>
      (pin.cid, sent s.faults dryRun (ensureRequest? (peersFor p profile) pin) pin)))
  | .tagPins profile =>
    .tagPins (.ofLog dryRun (s.pins.map fun pin =>
      (pin.cid, tagOutcome s.faults s.dagSizes profile dryRun pin)))
  | .repair =>
    .repair (.ofBroken s.pins.length dryRun
      ((s.pins.filterMap (classify p)).map (recoveredBy s.faults dryRun)))

/-- Calls about a pin of a pass that comes to it. -/
def callsAbout (p : Policy) (dryRun : Bool) (s : Memory) (pin : Pin) : Pass → List Call
  | .rebalance => Rebalance.callsFor p (.ofPolicy p s.freeSpace) dryRun pin
  | .ensurePins profile =>
    (made dryRun (ensureRequest? (peersFor p profile) pin)).toList.map .pin
  | .tagPins profile => tagCalls s.faults s.dagSizes profile dryRun pin
  | .repair => Repair.callsFor p dryRun pin

theorem about_callsAbout (p : Policy) (dryRun : Bool) (s : Memory) (pin : Pin) : ∀ pass : Pass,
    About pin.cid (pass.callsAbout p dryRun s pin)
  | .rebalance => about_request fun _ hr => cid_of_mem_request? hr
  | .ensurePins _ => about_request fun _ hr => congrArg (·.cid) (eq_of_mem_ensureRequest? hr)
  | .tagPins _ => about_tagCalls
  | .repair => about_callsFor

variable (host : String) {p : Policy} {dryRun : Bool} {s : Memory}

theorem run_rebalance_of_obstacle {e : Failure} (h : rebalance.obstacle p s.faults = some e) :
    (Rebalance.run host p dryRun).run s
      = (.error e, s.moved s.pins (rebalance.inquiries p s.faults)) := by
  rw [obstacle] at h
  rw [inquiries, Rebalance.run, Rebalance.rebalance]
  by_cases hbounds : boundsValid p = true
  · rw [if_pos hbounds] at h
    rw [if_pos hbounds, hbounds, Bool.not_true, if_neg Bool.false_ne_true,
      run_bind_of_run (run_freeSpace host s)]
    cases hspace : s.faults.freeSpace with
    | some e' =>
      rw [hspace] at h
      cases h
      rfl
    | none =>
      rw [hspace, Option.none_or] at h
      obtain ⟨e', hpins, rfl⟩ := Option.map_eq_some_iff.1 h
      rw [Faults.reply, run_bind_of_run (run_pins host _), faults_moved, hpins, pins_moved,
        moved_moved]
      rfl
  · rw [if_neg hbounds] at h
    cases h
    rw [if_neg hbounds, Bool.eq_false_iff.2 hbounds, Bool.not_false, if_pos rfl, moved_self]
    rfl

/-- **A pass that is kept from the pins fails and leaves them**, having made its inquiries. -/
theorem run_of_obstacle {e : Failure} : ∀ {pass : Pass}, pass.obstacle p s.faults = some e →
    (pass.run host p dryRun).run s = (.error e, s.moved s.pins (pass.inquiries p s.faults))
  | .rebalance, h => run_bind_of_run (run_rebalance_of_obstacle host h)
  | .ensurePins profile, h => by
    rw [obstacle] at h
    rw [inquiries]
    cases hrequired : p.requiredFor profile with
    | error e' =>
      rw [hrequired] at h
      cases h
      refine (run_bind_of_run (run_ensurePins_of_error hrequired)).trans ?_
      rw [Except.toOption, Option.isSome_none, if_neg Bool.false_ne_true, moved_self]
      rfl
    | ok required =>
      rw [hrequired] at h
      obtain ⟨e', hpins, rfl⟩ := Option.map_eq_some_iff.1 h
      exact run_bind_of_run (run_ensurePins_of_unlisted hrequired hpins)
  | .tagPins profile, h => by
    rw [obstacle] at h
    rw [inquiries]
    split at h
    · next hprofile =>
      obtain ⟨e', hpins, rfl⟩ := Option.map_eq_some_iff.1 h
      rw [if_pos hprofile]
      exact run_bind_of_run (run_tagPins_of_unlisted hprofile hpins)
    · next hprofile =>
      cases h
      rw [if_neg hprofile, moved_self]
      exact run_bind_of_run (run_tagPins_of_unknown (Option.not_isSome_iff_eq_none.1 hprofile))
  | .repair, h => by
    obtain ⟨e', hpins, rfl⟩ := Option.map_eq_some_iff.1 h
    exact run_bind_of_run (run_repair_of_unlisted hpins)

theorem possible_of_clear (h : rebalance.obstacle p s.faults = none) : Possible p s.faults := by
  rw [obstacle] at h
  split at h
  · next hbounds =>
    rw [Option.map_eq_none_iff, Option.or_eq_none_iff] at h
    exact ⟨hbounds, h⟩
  · cases h

/-- **A pass that comes to the pins has an account of them**, and leaves what it makes of each with
the calls about it. -/
theorem run_of_clear (hs : s.DistinctCids) : ∀ {pass : Pass}, pass.obstacle p s.faults = none →
    (pass.run host p dryRun).run s = (.ok (pass.account p dryRun s),
      s.moved (s.pins.map fun pin => pass.effect p dryRun s pin)
        (pass.inquiries p s.faults ++ s.pins.flatMap fun pin => pass.callsAbout p dryRun s pin))
  | .rebalance, h => by
    have hpossible := possible_of_clear h
    have hinquiries : rebalance.inquiries p s.faults = [.freeSpace, .pins] := by
      rw [inquiries, if_pos hpossible.1, hpossible.2.1]
      rfl
    simp only [effect, if_pos hpossible, hinquiries]
    exact run_bind_of_run (run_of_possible dryRun host hs hpossible)
  | .ensurePins profile, h => by
    rw [obstacle] at h
    cases hrequired : p.requiredFor profile with
    | error e => simp [hrequired] at h
    | ok required =>
      rw [hrequired] at h
      have hpins := Option.map_eq_none_iff.1 h
      have hpeers : peersFor p profile = required := by
        rw [peersFor, hrequired]
        rfl
      simp only [effect, account, inquiries, callsAbout, hrequired, hpins, hpeers]
      exact run_bind_of_run (run_ensurePins hs hrequired hpins)
  | .tagPins profile, h => by
    rw [obstacle] at h
    cases hprofile : p.profile profile with
    | none => simp [hprofile] at h
    | some q =>
      have hsome : (p.profile profile).isSome = true := by rw [hprofile, Option.isSome_some]
      rw [if_pos hsome] at h
      have hpins := Option.map_eq_none_iff.1 h
      simp only [effect, inquiries, hprofile, hpins]
      exact run_bind_of_run (run_tagPins hs hsome hpins)
  | .repair, h => by
    have hpins := Option.map_eq_none_iff.1 h
    simp only [effect, hpins]
    exact run_bind_of_run (run_repair hs hpins)

end Pass

end PinKeeper
