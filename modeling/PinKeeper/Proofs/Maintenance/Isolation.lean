import PinKeeper.Proofs.Maintenance.Account
import PinKeeper.Proofs.Maintenance.Retry

/-!
# Proofs/Maintenance/Isolation — one pin that fails is no matter to the others

Two runs of a pass from one state, in which the cluster refuses different changes, are compared.
What a pass asks for does not depend on what is refused (`callsAbout_failingWrites`), and what it
makes of a pin depends on the refusal of the calls about that pin alone (`effect_congr`).  A pass
fails as a whole only before it comes to the pins.
-/

namespace PinKeeper

open Memory Rebalance Migrate Repair

/-- Fault of a call that asks for a change of a pin. -/
def Call.writeFault (f : Faults) : Call → Option ClusterError
  | .pin r => f.pin r.cid
  | .recover cid => f.recover cid
  | _ => none

namespace Memory

/-- The memory with other requests and recoveries that fail. -/
def failingWrites (s : Memory) (pin recover : String → Option ClusterError) : Memory :=
  s.failing { s.faults with pin := pin, recover := recover }

/-- A change of a pin was asked for between two states, and that failed. -/
def WriteFailed (s t : Memory) (cid : String) : Prop :=
  ∃ x ∈ s.callsUntil t, x.subject = some cid ∧ (x.writeFault s.faults).isSome

theorem asked_congr {f f' : Faults} {r? : Option PinRequest} {pin : Pin}
    (h : ∀ r ∈ r?, f.pin r.cid = f'.pin r.cid) : asked f r? pin = asked f' r? pin := by
  cases r? with
  | none => rfl
  | some r => rw [asked, asked, Option.elim_some, Option.elim_some, served, served, h r rfl]

end Memory

/-- What comes of a broken pin depends on the recovery that is asked for. -/
theorem Repair.repaired_congr {f f' : Faults} {healOnRecover dryRun : Bool} {p : Policy} {pin : Pin}
    (h : ∀ cid, Call.recover cid ∈ Repair.callsFor p dryRun pin → f.recover cid = f'.recover cid) :
    repaired f healOnRecover p dryRun pin = repaired f' healOnRecover p dryRun pin := by
  rw [Repair.callsFor] at h
  rw [repaired, repaired]
  cases hb : classify p pin with
  | none => rfl
  | some b =>
    by_cases hpass : passedOver dryRun b = true
    · simp only [if_pos hpass]
    · rw [hb, Option.elim_some, recoverCalls, if_neg hpass] at h
      have hsame := h b.cid (List.mem_singleton.2 rfl)
      rw [cid_of_mem_classify hb] at hsame
      simp only [if_neg hpass, healedPin, hsame]

namespace Pass

section Congr

variable (p : Policy) (dryRun : Bool) (s : Memory) (pin : String → Option ClusterError)
  (recover : String → Option ClusterError)

/-- What keeps a pass from the pins does not depend on the changes that are refused. -/
theorem obstacle_failingWrites (pass : Pass) :
    pass.obstacle p (s.failingWrites pin recover).faults = pass.obstacle p s.faults := by
  cases pass <;> rfl

theorem inquiries_failingWrites (pass : Pass) :
    pass.inquiries p (s.failingWrites pin recover).faults = pass.inquiries p s.faults := by
  cases pass <;> rfl

/-- What a pass asks for does not depend on what is refused. -/
theorem callsAbout_failingWrites (x : Pin) (pass : Pass) :
    pass.callsAbout p dryRun (s.failingWrites pin recover) x = pass.callsAbout p dryRun s x := by
  cases pass <;> rfl

variable {p dryRun s pin recover} {pin' recover' : String → Option ClusterError}

/-- **What a pass makes of a pin depends on the refusal of the calls about it alone.** -/
theorem effect_congr {x : Pin} (pass : Pass)
    (h : ∀ c ∈ pass.callsAbout p dryRun s x, c.writeFault (s.failingWrites pin recover).faults
      = c.writeFault (s.failingWrites pin' recover').faults) :
    pass.effect p dryRun (s.failingWrites pin recover) x
      = pass.effect p dryRun (s.failingWrites pin' recover') x := by
  cases pass with
  | rebalance =>
    by_cases hpossible : Possible p s.faults
    · refine (if_pos hpossible).trans (.trans ?_ (if_pos hpossible).symm)
      exact asked_congr fun r hr => h _ (List.mem_map_of_mem (Option.mem_toList.2 hr))
    · exact (if_neg hpossible).trans (if_neg hpossible).symm
  | ensurePins profile =>
    cases hrequired : p.requiredFor profile with
    | error e => simp only [effect, hrequired]
    | ok required =>
      have hpeers : peersFor p profile = required := by
        rw [peersFor, hrequired]
        rfl
      cases hpins : s.faults.pins with
      | some e => simp only [effect, failingWrites, failing, hrequired, hpins]
      | none =>
        simp only [effect, failingWrites, failing, hrequired, hpins]
        rw [callsAbout, hpeers] at h
        exact asked_congr fun r hr => h _ (List.mem_map_of_mem (Option.mem_toList.2 hr))
  | tagPins profile =>
    cases hprofile : p.profile profile with
    | none => simp only [effect, hprofile]
    | some q =>
      cases hpins : s.faults.pins with
      | some e => simp only [effect, failingWrites, failing, hprofile, hpins]
      | none =>
        simp only [effect, failingWrites, failing, hprofile, hpins]
        exact asked_congr fun r hr =>
          h _ (List.mem_append_right _ (List.mem_map_of_mem (Option.mem_toList.2 hr)))
  | repair =>
    cases hpins : s.faults.pins with
    | some e => simp only [effect, failingWrites, failing, hpins]
    | none =>
      simp only [effect, failingWrites, failing, hpins]
      exact repaired_congr fun cid hcid => h _ hcid

end Congr

/-- A pass asks for no change before it comes to the pins. -/
theorem isWrite_of_mem_inquiries {p : Policy} {f : Faults} {pass : Pass} {c : Call}
    (hc : c ∈ pass.inquiries p f) : c.isWrite = false := by
  have hcalls : pass.inquiries p f ⊆ [.freeSpace, .pins] := by
    cases pass with
    | rebalance =>
      rw [inquiries]
      split
      · split <;> simp
      · simp
    | ensurePins profile =>
      rw [inquiries]
      split <;> simp
    | tagPins profile =>
      rw [inquiries]
      split <;> simp
    | repair => simp [inquiries]
  have hor : c = .freeSpace ∨ c = .pins := by simpa using hcalls hc
  rcases hor with rfl | rfl <;> rfl

section Run

variable (host : String) {p : Policy} {dryRun : Bool} {s : Memory}
  (pin recover : String → Option ClusterError)

theorem run_failingWrites_of_obstacle {e : Failure} {pass : Pass}
    (h : pass.obstacle p s.faults = some e) :
    (pass.run host p dryRun).run (s.failingWrites pin recover) = (.error e,
      (s.failingWrites pin recover).moved s.pins (pass.inquiries p s.faults)) := by
  rw [← inquiries_failingWrites p s pin recover]
  exact run_of_obstacle host ((obstacle_failingWrites p s pin recover pass).trans h)

theorem run_failingWrites_of_clear (hs : s.DistinctCids) {pass : Pass}
    (h : pass.obstacle p s.faults = none) :
    (pass.run host p dryRun).run (s.failingWrites pin recover) =
      (.ok (pass.account p dryRun (s.failingWrites pin recover)),
        (s.failingWrites pin recover).moved
          (s.pins.map fun x => pass.effect p dryRun (s.failingWrites pin recover) x)
          (pass.inquiries p s.faults ++ s.pins.flatMap fun x => pass.callsAbout p dryRun s x)) := by
  have hs' : (s.failingWrites pin recover).DistinctCids := hs
  rw [run_of_clear host hs' ((obstacle_failingWrites p s pin recover pass).trans h),
    inquiries_failingWrites]
  simp only [callsAbout_failingWrites]
  rfl

/-- No call about a pin whose changes did not fail was refused. -/
theorem writeFault_of_not_writeFailed (hs : s.DistinctCids) {pass : Pass}
    (h : pass.obstacle p s.faults = none) {x : Pin} (hx : x ∈ s.pins)
    (hnot : ¬WriteFailed (s.failingWrites pin recover)
      ((pass.run host p dryRun).run (s.failingWrites pin recover)).2 x.cid)
    {c : Call} (hc : c ∈ pass.callsAbout p dryRun s x) :
    c.writeFault (s.failingWrites pin recover).faults = none := by
  by_contra hfails
  refine hnot ⟨c, ?_, (about_callsAbout p dryRun s x pass).subject c hc,
    Option.isSome_iff_ne_none.2 hfails⟩
  rw [run_failingWrites_of_clear host pin recover hs h, callsUntil_moved]
  exact List.mem_append_right _ (List.mem_flatMap.2 ⟨x, hx, hc⟩)

end Run

/-- **The failure of one pin is no matter to the others, and a pass that fails as a whole has
changed nothing.**  Whatever requests and recoveries are refused, a pass makes the same calls; a pin
of which no change was refused in either of two runs is left the same by both; and a pass has no
account only if the policy, the free space or the listing kept it from the pins, in which case it
has asked for no change. -/
theorem failures_isolated (host : String) (p : Policy) (dryRun : Bool) {s : Memory}
    (hs : s.DistinctCids) (pass : Pass) (pin recover pin' recover' : String → Option ClusterError) :
    let s₁ := s.failingWrites pin recover
    let s₂ := s.failingWrites pin' recover'
    let r₁ := (pass.run host p dryRun).run s₁
    let r₂ := (pass.run host p dryRun).run s₂
    s₁.callsUntil r₁.2 = s₂.callsUntil r₂.2 ∧
      List.Forall₂ (fun x y => x.cid = y.cid ∧
        (¬WriteFailed s₁ r₁.2 x.cid → ¬WriteFailed s₂ r₂.2 x.cid → x = y)) r₁.2.pins r₂.2.pins ∧
      ∀ e, r₁.1 = .error e →
        pass.obstacle p s.faults = some e ∧ ∀ c ∈ s₁.callsUntil r₁.2, c.isWrite = false := by
  intro s₁ s₂ r₁ r₂
  cases hobstacle : pass.obstacle p s.faults with
  | some e =>
    have h₁ : r₁ = _ := run_failingWrites_of_obstacle host pin recover hobstacle
    have h₂ : r₂ = _ := run_failingWrites_of_obstacle host pin' recover' hobstacle
    rw [h₁, h₂, callsUntil_moved, callsUntil_moved]
    refine ⟨rfl, List.forall₂_same.2 fun x _ => ⟨rfl, fun _ _ => rfl⟩, fun e' he => ?_⟩
    exact ⟨congrArg some (Except.error.inj he), fun c => isWrite_of_mem_inquiries⟩
  | none =>
    have h₁ : r₁ = _ := run_failingWrites_of_clear host pin recover hs hobstacle
    have h₂ : r₂ = _ := run_failingWrites_of_clear host pin' recover' hs hobstacle
    refine ⟨?_, ?_, fun e he => ?_⟩
    · rw [h₁, h₂, callsUntil_moved, callsUntil_moved]
    · have hpins₁ : r₁.2.pins = s.pins.map fun x => pass.effect p dryRun s₁ x := by rw [h₁]; rfl
      have hpins₂ : r₂.2.pins = s.pins.map fun x => pass.effect p dryRun s₂ x := by rw [h₂]; rfl
      rw [hpins₁, hpins₂, List.forall₂_map_left_iff, List.forall₂_map_right_iff]
      refine List.forall₂_same.2 fun x hx => ⟨?_, fun hnot₁ hnot₂ => ?_⟩
      · rw [cid_effect, cid_effect]
      · rw [cid_effect] at hnot₁ hnot₂
        refine effect_congr pass fun c hc => ?_
        rw [writeFault_of_not_writeFailed host pin recover hs hobstacle hx hnot₁ hc,
          writeFault_of_not_writeFailed host pin' recover' hs hobstacle hx hnot₂ hc]
    · rw [h₁] at he
      cases he

theorem failures_isolated_sample :
    let s₁ := Sample.memory.failingWrites (Sample.refusing "few").pin fun _ => none
    let s₂ := Sample.memory.failingWrites (Sample.refusing "many").pin fun _ => none
    let r₁ := (rebalance.run "alpha" Sample.policy false).run s₁
    let r₂ := (rebalance.run "alpha" Sample.policy false).run s₂
    Sample.memory.DistinctCids ∧ s₁.callsUntil r₁.2 = s₂.callsUntil r₂.2 ∧
      List.Forall₂ (fun x y => x.cid = y.cid ∧
        (¬WriteFailed s₁ r₁.2 x.cid → ¬WriteFailed s₂ r₂.2 x.cid → x = y)) r₁.2.pins r₂.2.pins := by
  have hs : Sample.memory.DistinctCids := by decide
  have ⟨hcalls, hpins, _⟩ := failures_isolated "alpha" Sample.policy false hs rebalance
    (Sample.refusing "few").pin (fun _ => none) (Sample.refusing "many").pin fun _ => none
  exact ⟨hs, hcalls, hpins⟩

end Pass

end PinKeeper
