import Mathlib.Data.List.ReduceOption
import PinKeeper.Maintenance.Repair
import PinKeeper.Proofs.Cluster.Memory

/-!
# Proofs/Maintenance/Repair — a run of `repair`, in one line

A repair sorts out the broken pins first and recovers them afterwards.  As a recovery changes the
reports about one pin only, it might as well go over all pins and pass over the sound ones
(`repairPin_inPlace`, `recoverAll_eq_mapM`), and so it is a pass like the others (`run_repair`).

A pin whose recovery has succeeded is not broken, so it is not recovered twice
(`repaired_repaired`).
-/

namespace PinKeeper.Repair

open Memory

/-! ## A pin -/

variable (f : Faults) (healOnRecover : Bool) (p : Policy) (dryRun : Bool) (b : BrokenPin)
  (pin : Pin)

/-- No recovery is asked for. -/
def passedOver : Bool := !b.recoverable || dryRun

/-- Broken pin with what came of its recovery. -/
def recoveredBy : BrokenPin :=
  if passedOver dryRun b then b
  else { b with recovery := (f.recover b.cid).elim .triggered .failed }

/-- Calls for a broken pin. -/
def recoverCalls : List Call := if passedOver dryRun b then [] else [.recover b.cid]

/-- Pin after a run that comes to it. -/
def repaired : Pin :=
  match classify p pin with
  | none => pin
  | some b => if passedOver dryRun b then pin else healedPin f healOnRecover pin

/-- Calls for a pin. -/
def callsFor : List Call := (classify p pin).elim [] (recoverCalls dryRun)

variable {f healOnRecover p dryRun b pin}

/-- **A broken pin names its pin, the nodes that failed and those that are healthy**, and nothing
has become of it yet. -/
theorem eq_of_mem_classify (h : b ∈ classify p pin) :
    b = ⟨pin.cid, pin.name, nodesWith p pin PinState.isError, nodesWith p pin PinState.isHealthy,
      .none⟩ := by
  rw [classify, Option.mem_def] at h
  split at h
  · cases h
  · exact (Option.some.inj h).symm

/-- **A pin is sound exactly if no node failed.** -/
theorem classify_eq_none_iff_nodesWith :
    classify p pin = none ↔ nodesWith p pin PinState.isError = [] := by
  rw [classify]
  split
  · next h => exact iff_of_true rfl (List.isEmpty_iff.1 h)
  · next h => exact iff_of_false (Option.some_ne_none _) fun hnil => h (List.isEmpty_iff.2 hnil)

theorem cid_of_mem_classify (h : b ∈ classify p pin) : b.cid = pin.cid := by
  rw [eq_of_mem_classify h]

variable (p) in
/-- **What is read off some of the broken pins can be read off their pins.** -/
theorem map_filter_classify {α : Type} (q : BrokenPin → Bool) {g : BrokenPin → α} {g' : Pin → α}
    (hg : ∀ pin, ∀ b ∈ classify p pin, g b = g' pin) : ∀ pins : List Pin,
    ((pins.filterMap (classify p)).filter q).map g
      = (pins.filter fun pin => (classify p pin).any q).map g'
  | [] => rfl
  | pin :: pins => by
    have ih := map_filter_classify q hg pins
    rw [List.filterMap_cons, List.filter_cons]
    cases hb : classify p pin with
    | none => exact ih
    | some b =>
      rw [Option.any_some, List.filter_cons]
      split
      · rw [List.map_cons, List.map_cons, ih, hg pin b hb]
      · exact ih

theorem cid_repaired : (repaired f healOnRecover p dryRun pin).cid = pin.cid := by
  rw [repaired]
  split
  · rfl
  · split
    · rfl
    · exact cid_healedPin f healOnRecover pin

theorem about_callsFor : About pin.cid (callsFor p dryRun pin) := by
  rw [callsFor]
  cases hb : classify p pin with
  | none => exact about_nil _
  | some b =>
    rw [Option.elim_some, recoverCalls]
    split
    · exact about_nil _
    · exact about_singleton (congrArg some (cid_of_mem_classify hb))

variable (f healOnRecover p dryRun pin) in
/-- A pin is as it was, or healed. -/
theorem repaired_eq_or : repaired f healOnRecover p dryRun pin = pin ∨
    repaired f healOnRecover p dryRun pin = healedPin f healOnRecover pin := by
  rw [repaired]
  split
  · exact .inl rfl
  · split
    · exact .inl rfl
    · exact .inr rfl

/-! ## A pin that was healed -/

theorem isError_healed (st : PeerStatus) : (healed st).state.isError = false := by
  rw [healed]
  split
  · rfl
  · next h => exact Bool.eq_false_iff.2 h

/-- No peer reports an error about a pin whose recovery has succeeded. -/
theorem classify_healed : classify p
    { pin with peerMap := pin.peerMap.mapEntries fun _ st => healed st } = none := by
  have hfailed : nodesWith p { pin with peerMap := pin.peerMap.mapEntries fun _ st => healed st }
      PinState.isError = [] := by
    rw [nodesWith, List.map_eq_nil_iff, List.filter_eq_nil_iff]
    intro e he
    obtain ⟨e, -, rfl⟩ := List.mem_map.1 he
    rw [isError_healed]
    exact Bool.false_ne_true
  rw [classify, hfailed]
  rfl

/-- **A repair without faults does for a pin that another repair has come to what it would have
done before.** -/
theorem repaired_repaired (h : f.recover pin.cid = none) (f' : Faults) :
    repaired f healOnRecover p false (repaired f' healOnRecover p false pin)
      = repaired f healOnRecover p false pin := by
  cases hb : classify p pin with
  | none => simp only [repaired, hb]
  | some b =>
    by_cases hpass : passedOver false b = true
    · simp only [repaired, hb, if_pos hpass]
    · have hrepaired (g : Faults) :
          repaired g healOnRecover p false pin = healedPin g healOnRecover pin := by
        simp only [repaired, hb, if_neg hpass]
      rw [hrepaired f', hrepaired f, healedPin]
      split
      · exact hrepaired f
      · next hheals =>
        have hheal : healOnRecover = true := by
          rw [Bool.or_eq_true, not_or] at hheals
          simpa using hheals.2
        have hclean : healedPin f true pin
            = { pin with peerMap := pin.peerMap.mapEntries fun _ st => healed st } := by
          rw [healedPin, h]
          rfl
        rw [hheal, hclean, repaired, classify_healed]

/-! ## The run -/

variable (host : String) (s : Memory)

theorem run_recover_append {before rest : List Pin} (log : List Call) (hb : b.cid = pin.cid)
    (h : ∀ q ∈ before ++ rest, q.cid ≠ pin.cid) :
    (recover (cluster host) (.plain dryRun) b).run (s.moved (before ++ pin :: rest) log)
      = (recoveredBy s.faults dryRun b,
          s.moved
            (before ++
              (if passedOver dryRun b then pin else healedPin s.faults s.healOnRecover pin) :: rest)
            (log ++ recoverCalls dryRun b)) := by
  rw [recover, recoveredBy, recoverCalls, passedOver]
  change StateT.run (if (!b.recoverable || dryRun) = true then _ else _) _ = _
  by_cases hpass : (!b.recoverable || dryRun) = true
  · rw [if_pos hpass, if_pos hpass, if_pos hpass, if_pos hpass, List.append_nil]
    rfl
  · rw [if_neg hpass, if_neg hpass, if_neg hpass, if_neg hpass,
      run_bind_of_run (run_recover host _ b.cid), faults_moved, healOnRecover_moved, pins_moved,
      moved_moved, hb, recovered_append h]
    cases s.faults.recover pin.cid <;> rfl

/-- Recovers a pin if it is broken. -/
theorem repairPin_inPlace : InPlace s
    (fun pin => (classify p pin).mapM (recover (cluster host) (.plain dryRun)))
    (fun pin => (classify p pin).map (recoveredBy s.faults dryRun))
    (repaired s.faults s.healOnRecover p dryRun) (callsFor p dryRun) where
  cid_effect _ := cid_repaired
  about_calls _ := about_callsFor
  run_step {pin before rest} log hothers := by
    rw [repaired, callsFor]
    cases hb : classify p pin with
    | none =>
      rw [Option.elim_none, List.append_nil]
      rfl
    | some b =>
      rw [Option.mapM_some, ← bind_pure_comp]
      exact run_bind_of_run (run_recover_append host s log (cid_of_mem_classify hb) hothers)

variable {m : Type → Type} [Monad m] [LawfulMonad m]

/-- Recovering the broken pins is going over all pins. -/
theorem recoverAll_eq_mapM (cluster : Cluster m) (scan : Scan m) : ∀ pins : List Pin,
    recoverAll cluster scan (pins.filterMap (classify p)) = do
      return (← pins.mapM fun pin => (classify p pin).mapM (recover cluster scan)).reduceOption
  | [] => by
    rw [List.filterMap_nil, recoverAll, List.mapM_nil, pure_bind]
    rfl
  | pin :: pins => by
    rw [List.filterMap_cons, List.mapM_cons]
    cases classify p pin with
    | none =>
      simp [recoverAll_eq_mapM cluster scan pins, List.reduceOption_cons_of_none]
    | some b =>
      simp [recoverAll, recoverAll_eq_mapM cluster scan pins, List.reduceOption_cons_of_some]

variable {host s}

/-- **A repair settles each pin by itself.** -/
theorem run_repair (hs : s.DistinctCids) (hpins : s.faults.pins = none) :
    (repair (cluster host) p (.plain dryRun)).run s =
      (.ok (Report.ofBroken s.pins.length dryRun
          ((s.pins.filterMap (classify p)).map (recoveredBy s.faults dryRun))),
        s.moved (s.pins.map (repaired s.faults s.healOnRecover p dryRun))
          (.pins :: s.pins.flatMap (callsFor p dryRun))) := by
  have hplace : InPlace s
      (fun pin => (classify p pin).mapM (recover (cluster host) (.plain dryRun))) _ _ _ :=
    repairPin_inPlace host s
  have hbroken : (s.pins.map fun pin =>
      (classify p pin).map (recoveredBy s.faults dryRun)).reduceOption
      = (s.pins.filterMap (classify p)).map (recoveredBy s.faults dryRun) := by
    rw [List.reduceOption, List.filterMap_map, List.map_filterMap]
    rfl
  refine (run_bind_of_run (run_pins_of_none host hpins)).trans ?_
  change StateT.run (bind (recoverAll (cluster host) _ (s.pins.filterMap (classify p))) _) _ = _
  rw [recoverAll_eq_mapM, bind_assoc, run_bind_of_run (hplace.run_mapM hs [.pins]), ← hbroken]
  rfl

variable (dryRun) in
/-- What comes of a recovery does not depend on the pins. -/
theorem run_recover_of_faults (host : String) (b : BrokenPin) (s : Memory) :
    ∃ t : Memory, t.faults = s.faults ∧
      (recover (cluster host) (.plain dryRun) b).run s = (recoveredBy s.faults dryRun b, t) := by
  rw [recover, recoveredBy, passedOver]
  change ∃ t, _ ∧ StateT.run (if (!b.recoverable || dryRun) = true then _ else _) _ = _
  by_cases hpass : (!b.recoverable || dryRun) = true
  · rw [if_pos hpass, if_pos hpass]
    exact ⟨s, rfl, rfl⟩
  · rw [if_neg hpass, if_neg hpass, run_bind_of_run (run_recover host s b.cid)]
    refine ⟨s.moved (recovered s.faults s.healOnRecover b.cid s.pins) [.recover b.cid], rfl, ?_⟩
    cases s.faults.recover b.cid <;> rfl

theorem answer_recoverAll (host : String) : ∀ (bs : List BrokenPin) (s : Memory),
    ((recoverAll (cluster host) (.plain dryRun) bs).run s).1 = bs.map (recoveredBy s.faults dryRun)
  | [], _ => rfl
  | b :: bs, s => by
    obtain ⟨t, hfaults, hrun⟩ := run_recover_of_faults dryRun host b s
    rw [recoverAll, run_bind_of_run hrun, List.map_cons, ← hfaults, ← answer_recoverAll host bs t]
    rfl

/-- The answer of a repair, whatever identifiers the pins have. -/
theorem answer_repair (host : String) (hpins : s.faults.pins = none) :
    ((repair (cluster host) p (.plain dryRun)).run s).1
      = .ok (Report.ofBroken s.pins.length dryRun
          ((s.pins.filterMap (classify p)).map (recoveredBy s.faults dryRun))) := by
  have hall : ((recoverAll (cluster host) (.plain dryRun) (s.pins.filterMap (classify p))).run
      (s.moved s.pins [.pins])).1 = _ := answer_recoverAll host _ _
  rw [faults_moved] at hall
  rw [repair, run_bind_of_run (run_pins_of_none host hpins), ← hall]
  rfl

theorem run_repair_of_unlisted {e : ClusterError} (hpins : s.faults.pins = some e) :
    (repair (cluster host) p (.plain dryRun)).run s = (.error e, s.moved s.pins [.pins]) :=
  run_bind_of_run (run_pins_of_some host hpins)

end PinKeeper.Repair
