import PinKeeper.Proofs.Maintenance.Lost
import PinKeeper.Proofs.Maintenance.Recovery

/-!
# Proofs/Maintenance/Cure — one repair is enough

A cluster heals (`Heals`) if a recovery that succeeds leaves no error about its pin, and nothing
else changes what it lists.  After recoveries that all succeeded, each pin that one of them was
about is sound, and each other pin is as it was (`Cured`).  As the identifiers are distinct, the
recoveries were about the recoverable pins and no others, so what is still broken is what was lost
(`filterMap_classify_of_cured`), and a second repair finds nothing that it could ask for.
-/

namespace PinKeeper

/-- State after a recovery that succeeded. -/
def PinState.healed (x : PinState) : PinState := if x.isError then .pinned else x

theorem PinState.isError_healed (x : PinState) : x.healed.isError = false := by
  cases x <;> rfl

namespace Repair

open Memory

/-! ## A pin and the recoveries -/

/-- A recovery that succeeded turns the errors that are reported about its pin into `pinned`, and
leaves the other pins. -/
structure Mended (cid : String) (pin pin' : Pin) : Prop where
  cid_eq : pin'.cid = pin.cid
  stateOf_eq : pin.cid = cid → ∀ id, pin'.stateOf id = (pin.stateOf id).map PinState.healed
  eq_of_ne : pin.cid ≠ cid → pin' = pin

/-- Recoveries that succeeded leave the pins that they were about sound, and the others as they
were. -/
structure Cured (p : Policy) (cids : List String) (pin pin' : Pin) : Prop where
  sound : pin.cid ∈ cids → classify p pin' = none
  eq_of_notMem : pin.cid ∉ cids → pin' = pin

section Pin

variable {p : Policy} {cid : String} {cids : List String} {pin mid pin' : Pin}

theorem Mended.classify_eq_none (h : Mended cid pin pin') (hcid : pin.cid = cid) :
    classify p pin' = none := by
  rw [classify_eq_none_iff_not_reports]
  rintro ⟨id, x, hx, herror⟩
  rw [h.stateOf_eq hcid, Option.map_eq_some_iff] at hx
  obtain ⟨x, -, rfl⟩ := hx
  rw [x.isError_healed] at herror
  cases herror

theorem Cured.nil (p : Policy) (pin : Pin) : Cured p [] pin pin := ⟨nofun, fun _ => rfl⟩

theorem Cured.cons (h : Mended cid pin mid) (ht : Cured p cids mid pin') :
    Cured p (cid :: cids) pin pin' := by
  refine ⟨fun hmem => ?_, fun hnot => ?_⟩
  · by_cases hleft : mid.cid ∈ cids
    · exact ht.sound hleft
    · have hcid : pin.cid = cid := by
        rw [h.cid_eq] at hleft
        exact (List.mem_cons.1 hmem).resolve_right hleft
      rw [ht.eq_of_notMem hleft]
      exact h.classify_eq_none hcid
  · have ⟨hne, hleft⟩ := not_or.1 (mt List.mem_cons.2 hnot)
    obtain rfl := h.eq_of_ne hne
    exact ht.eq_of_notMem hleft

end Pin

/-- The recovery of a cluster in memory mends its pin. -/
theorem mended_heal (cid : String) (pin : Pin) : Mended cid pin
    (if pin.cid = cid then { pin with peerMap := pin.peerMap.mapEntries fun _ s => healed s }
      else pin) := by
  split
  · next hcid =>
    refine ⟨rfl, fun _ id => ?_, fun hne => absurd hcid hne⟩
    rw [Pin.stateOf, Pin.stateOf, Dict.find?_mapEntries, Option.map_map, Option.map_map]
    refine Option.map_congr fun st _ => ?_
    rw [Function.comp_apply, Function.comp_apply, healed, PinState.healed]
    split <;> rfl
  · next hne => exact ⟨rfl, fun hcid => absurd hcid hne, fun _ => rfl⟩

/-! ## The listing and the recoveries -/

/-- A cluster, with what it lists in its states, heals in the states that are sane: it lists the
pins as they are, and a recovery that succeeds mends its pin. -/
structure Heals {σ : Type} (cluster : Cluster (StateM σ)) (Sane : σ → Prop)
    (listed : σ → List Pin) : Prop where
  pins {s t : σ} {pins : List Pin} : Sane s → cluster.pins.run s = (.ok pins, t) →
    pins = listed s ∧ listed t = listed s ∧ Sane t
  recover {s t : σ} {cid : String} : Sane s → (cluster.recover cid).run s = (.ok (), t) →
    List.Forall₂ (Mended cid) (listed s) (listed t) ∧ Sane t

theorem forall₂_cons_of_mended {p : Policy} {cid : String} {cids : List String} :
    ∀ {ps qs rs : List Pin}, List.Forall₂ (Mended cid) ps qs → List.Forall₂ (Cured p cids) qs rs →
      List.Forall₂ (Cured p (cid :: cids)) ps rs
  | _, _, _, .nil, .nil => .nil
  | _, _, _, .cons h hs, .cons ht hts => .cons (.cons h ht) (forall₂_cons_of_mended hs hts)

variable {σ : Type} {cluster : Cluster (StateM σ)} {Sane : σ → Prop} {listed : σ → List Pin}
  {p : Policy}

/-- **Recoveries that all succeed cure the pins they are about.** -/
theorem Heals.forall₂_cured (h : Heals cluster Sane listed) (p : Policy) :
    ∀ {cids : List String} {s t : σ} {answers : List (Except ClusterError Unit)}, Sane s →
      (cids.mapM cluster.recover).run s = (answers, t) → (∀ answer ∈ answers, answer = .ok ()) →
        List.Forall₂ (Cured p cids) (listed s) (listed t) ∧ Sane t
  | [], s, t, answers, hs, hrun, _ => by
    obtain rfl : s = t := congrArg Prod.snd hrun
    exact ⟨List.forall₂_same.2 fun pin _ => .nil p pin, hs⟩
  | cid :: cids, s, t, answers, hs, hrun, hok => by
    obtain ⟨answer, u, hanswer⟩ : ∃ answer u, (cluster.recover cid).run s = (answer, u) :=
      ⟨_, _, rfl⟩
    obtain ⟨rest, v, hrest⟩ : ∃ rest v, (cids.mapM cluster.recover).run u = (rest, v) :=
      ⟨_, _, rfl⟩
    rw [List.mapM_cons, run_bind_of_run hanswer, run_bind_of_run hrest] at hrun
    obtain ⟨rfl, rfl⟩ := Prod.mk.inj hrun
    obtain ⟨rfl, hokRest⟩ := List.forall_mem_cons.1 hok
    obtain ⟨hmended, hu⟩ := h.recover hs hanswer
    obtain ⟨hcured, hv⟩ := h.forall₂_cured p hu hrest hokRest
    exact ⟨forall₂_cons_of_mended hmended hcured, hv⟩

/-- Of pins that were cured, those are broken that were and that no recovery was about. -/
theorem filterMap_classify_of_forall₂ {cids : List String} : ∀ {pins pins' : List Pin},
    List.Forall₂ (Cured p cids) pins pins' →
      pins'.filterMap (classify p)
        = (pins.filter fun pin => pin.cid ∉ cids).filterMap (classify p)
  | _, _, .nil => rfl
  | pin :: _, pin' :: _, .cons h hs => by
    have ih := filterMap_classify_of_forall₂ hs
    by_cases hmem : pin.cid ∈ cids
    · rw [List.filterMap_cons_none (h.sound hmem), List.filter_cons_of_neg (by simpa using hmem),
        ih]
    · rw [h.eq_of_notMem hmem, List.filter_cons_of_pos (by simpa using hmem), List.filterMap_cons,
        List.filterMap_cons, ih]

/-- As the identifiers are distinct, a recovery is about a pin exactly if the pin is recoverable. -/
theorem mem_map_cid_iff {pins : List Pin} (hs : (pins.map (·.cid)).Nodup) {pin : Pin}
    (hpin : pin ∈ pins) :
    pin.cid ∈ (pins.filter (isRecoverable p)).map (·.cid) ↔ isRecoverable p pin = true := by
  constructor
  · intro hcid
    obtain ⟨q, hq, hcid⟩ := List.mem_map.1 hcid
    obtain ⟨hq, hrecoverable⟩ := List.mem_filter.1 hq
    rwa [← List.inj_on_of_nodup_map hs hq hpin hcid]
  · exact fun hrecoverable => List.mem_map_of_mem (List.mem_filter.2 ⟨hpin, hrecoverable⟩)

theorem classify_unless_recoverable (p : Policy) (pin : Pin) :
    (if !isRecoverable p pin then classify p pin else none)
      = (classify p pin).filter fun b => !b.recoverable := by
  rw [isRecoverable]
  cases classify p pin with
  | none => exact ite_self _
  | some b => rfl

/-- **What is broken after the recoveries is what was lost before.** -/
theorem filterMap_classify_of_cured {pins pins' : List Pin} (hs : (pins.map (·.cid)).Nodup)
    (h : List.Forall₂ (Cured p ((pins.filter (isRecoverable p)).map (·.cid))) pins pins') :
    pins'.filterMap (classify p)
      = (pins.filterMap (classify p)).filter fun b => !b.recoverable := by
  calc pins'.filterMap (classify p)
    _ = (pins.filter fun pin =>
          pin.cid ∉ (pins.filter (isRecoverable p)).map (·.cid)).filterMap (classify p) :=
      filterMap_classify_of_forall₂ h
    _ = (pins.filter fun pin => !isRecoverable p pin).filterMap (classify p) := by
      refine congrArg _ (List.filter_congr fun pin hpin => ?_)
      simp only [decide_not, mem_map_cid_iff hs hpin, Bool.decide_eq_true]
    _ = pins.filterMap fun pin => (classify p pin).filter fun b => !b.recoverable := by
      rw [List.filterMap_filter,
        List.filterMap_congr fun pin _ => classify_unless_recoverable p pin]
    _ = (pins.filterMap (classify p)).filter fun b => !b.recoverable :=
      List.filter_filterMap.symm

/-- A cluster in memory heals, if its recoveries do not take their time. -/
theorem heals_memory (host : String) :
    Heals (Memory.cluster host) (·.healOnRecover = true) (·.pins) where
  pins {s t pins} hs hrun := by
    rw [run_pins] at hrun
    obtain ⟨hpins, rfl⟩ := Prod.mk.inj hrun
    exact ⟨(Faults.reply_eq_ok_iff.1 hpins).2.symm, rfl, hs⟩
  recover {s t cid} hs hrun := by
    rw [run_recover] at hrun
    obtain ⟨hanswer, rfl⟩ := Prod.mk.inj hrun
    refine ⟨?_, hs⟩
    rw [pins_moved, recovered, (Faults.reply_eq_ok_iff.1 hanswer).1, hs, Option.isSome_none,
      Bool.not_true, Bool.or_false, if_neg Bool.false_ne_true, heal, List.forall₂_map_right_iff]
    exact List.forall₂_same.2 fun pin _ => mended_heal cid pin

/-! ## Two runs -/

/-- **A repair of pins that are all sound or lost** lists them, and asks for nothing. -/
theorem exists_idle_account {s t : σ} {pins : List Pin}
    (hpins : cluster.pins.run s = (.ok pins, t))
    (hlost : ∀ b ∈ pins.filterMap (classify p), b.recoverable = false) :
    ((repair cluster.recorded p (.plain false)).run []).run s
      = ((.ok (.ofBroken pins.length false (pins.filterMap (classify p))), [.pins]), t) := by
  have hlisted : (cluster.recorded.pins.run []).run s = ((.ok pins, [.pins]), t) :=
    run_recording hpins .pins []
  rw [repair, run_bind_of_run_run hlisted]
  change StateT.run (StateT.run (bind (recoverAll _ _ (pins.filterMap (classify p))) _) _) _ = _
  rw [recoverAll_of_lost _ hlost, pure_bind]
  rfl

/-- **A repair asks for each recovery once and accounts for it.**  Whatever the cluster answers
after it has listed its pins, it is asked for the recovery of the pins that are broken and
recoverable, once each and in their order, and for nothing else, and the report adds up.

If the cluster heals, the pins have distinct identifiers and no recovery has failed, a second repair
finds the lost pins alone and asks for no recovery. -/
theorem repair_accounts (cluster : Cluster (StateM σ)) (p : Policy) {s t : σ} {pins : List Pin}
    (hpins : cluster.pins.run s = (.ok pins, t)) :
    let cids := (pins.filter (isRecoverable p)).map (·.cid)
    ∃ answers report u, (cids.mapM cluster.recover).run t = (answers, u) ∧
      (repair cluster p (.plain false)).run s = (.ok report, u) ∧
      ((repair cluster.recorded p (.plain false)).run []).run s
        = ((.ok report, .pins :: cids.map .recover), u) ∧
      report.Accounts p pins answers ∧
      ∀ (Sane : σ → Prop) (listed : σ → List Pin), Heals cluster Sane listed → Sane s →
        (pins.map (·.cid)).Nodup → report.recoverErrors = 0 →
          ∀ pins' v, cluster.pins.run u = (.ok pins', v) → ∃ again,
            ((repair cluster.recorded p (.plain false)).run []).run u = ((.ok again, [.pins]), v) ∧
            again.brokenPins = (report.brokenPins.filter fun b => !b.recoverable) ∧
            again.broken = report.lost ∧ again.lost = report.lost := by
  intro cids
  obtain ⟨answers, report, u, htold, haccounts, hasked, hrun, hrecord⟩ := exists_account p hpins
  refine ⟨answers, report, u, hasked, hrun, hrecord, haccounts, ?_⟩
  intro Sane listed hheals hs hnodup hnone pins' v hpins'
  obtain ⟨rfl, hsame, ht⟩ := hheals.pins hs hpins
  obtain ⟨hcured, hu⟩ := hheals.forall₂_cured p ht hasked (haccounts.eq_ok hnone)
  obtain ⟨rfl, -, -⟩ := hheals.pins hu hpins'
  rw [hsame] at hcured
  have hbroken : (listed u).filterMap (classify p)
      = report.brokenPins.filter fun b => !b.recoverable := by
    rw [filterMap_classify_of_cured hnodup hcured, htold.filter_lost]
  have hlost : ∀ b ∈ (listed u).filterMap (classify p), b.recoverable = false := by
    intro b hb
    rw [hbroken] at hb
    simpa using (List.mem_filter.1 hb).2
  refine ⟨_, exists_idle_account hpins' hlost, hbroken, ?_, ?_⟩
  · rw [haccounts.lost, ← hbroken]
    rfl
  · rw [haccounts.lost, ← hbroken]
    exact congrArg List.length
      (List.filter_eq_self.2 fun b hb => by rw [hlost b hb, Bool.not_false])

end Repair

/-- Cluster with a pin that is lost before pins that can be recovered. -/
def Sample.damaged : Memory := { memory with pins := unsure :: memory.pins }

theorem Repair.repair_accounts_sample :
    let cluster := Memory.cluster "alpha"
    let run := (repair cluster Sample.policy (.plain false)).run
    let recorded := ((repair cluster.recorded Sample.policy (.plain false)).run []).run
    ∃ report again u v, run Sample.damaged = (.ok report, u) ∧
      recorded Sample.damaged = ((.ok report, [.pins, .recover "astray", .recover "many",
        .recover "few", .recover "right"]), u) ∧
      report.broken = 5 ∧ report.recovered = 4 ∧ report.lost = 1 ∧
      recorded u = ((.ok again, [.pins]), v) ∧ again.broken = 1 ∧ again.lost = 1 := by
  intro cluster run recorded
  have hpins : cluster.pins.run Sample.damaged
      = (.ok Sample.damaged.pins, Sample.damaged.moved Sample.damaged.pins [.pins]) :=
    Memory.run_pins_of_none _ rfl
  have hcounts : (run Sample.damaged).1.map
      (fun r => (r.broken, r.recovered, r.recoverErrors, r.lost)) = .ok (5, 4, 0, 1) := by decide
  have hfaults : (run Sample.damaged).2.faults.pins = none := rfl
  obtain ⟨answers, report, u, -, hrun, hrecord, -, hsecond⟩ :=
    repair_accounts cluster Sample.policy hpins
  rw [show run Sample.damaged = _ from hrun] at hcounts hfaults
  obtain ⟨hbroken, hrecovered, herrors, hlost⟩ : report.broken = 5 ∧ report.recovered = 4 ∧
      report.recoverErrors = 0 ∧ report.lost = 1 := by simpa using Except.ok.inj hcounts
  obtain ⟨again, hagain, -, hstill, hstillLost⟩ := hsecond _ _ (heals_memory "alpha") rfl
    (by decide) herrors u.pins _ (Memory.run_pins_of_none _ hfaults)
  exact ⟨report, again, u, _, hrun, hrecord, hbroken, hrecovered, hlost, hagain,
    hstill.trans hlost, hstillLost.trans hlost⟩

end PinKeeper
