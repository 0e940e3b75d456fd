import PinKeeper.Proofs.Maintenance.Account
import PinKeeper.Proofs.Maintenance.Parts

/-!
# Proofs/Maintenance/DryRun — a dry run only reads, and foretells

A dry run takes another branch wherever a pass asks for a change.  That it asks for none is a
compositional property (`Memory.Reads`), so that it holds from every state of the cluster.  That it
gives the account of the real run comes pin by pin: where no request is refused, both make the same
of each pin (`settledBy_of_dry`, `sent_of_dry`, `tagOutcome_of_dry`).  A dry repair gives the broken
pins as they were sorted out, before any was recovered.
-/

namespace PinKeeper

open Memory Rebalance Migrate Repair

/-! ## Programs that only read -/

namespace Memory

/-- A program leaves a memory as it was, after calls that ask for no change. -/
def Reads (α : Type) (x : StateM Memory α) : Prop :=
  ∀ s, ∃ calls, (x.run s).2 = s.moved s.pins calls ∧ ∀ c ∈ calls, c.isWrite = false

theorem compositional_reads : Compositional Reads where
  pure _ s := ⟨[], s.moved_self.symm, nofun⟩
  bind {α β x f} hx hf s := by
    obtain ⟨calls, hleft, hcalls⟩ := hx s
    obtain ⟨more, hleft', hmore⟩ := hf (x.run s).1 (s.moved s.pins calls)
    refine ⟨calls ++ more, ?_, List.forall_mem_append.2 ⟨hcalls, hmore⟩⟩
    have hrun : x.run s = ((x.run s).1, s.moved s.pins calls) := Prod.ext rfl hleft
    rw [run_bind_of_run hrun, hleft', pins_moved, moved_moved]

/-- A call that asks for no change only reads. -/
theorem reads_of_run {α : Type} {x : StateM Memory α} {answer : Memory → α} {call : Call}
    (hx : ∀ s, x.run s = (answer s, s.moved s.pins [call])) (hcall : call.isWrite = false) :
    Reads α x :=
  fun s => ⟨[call], congrArg Prod.snd (hx s), List.forall_mem_singleton.2 hcall⟩

variable (host : String)

theorem reads_pins : Reads _ (cluster host).pins := reads_of_run (run_pins host) rfl

theorem reads_freeSpace : Reads _ (cluster host).freeSpace := reads_of_run (run_freeSpace host) rfl

theorem reads_dagSize (cid : String) : Reads _ ((cluster host).dagSize cid) :=
  reads_of_run (fun s => run_dagSize host s cid) rfl

end Memory

/-! ## What is foretold of a pin -/

section Pin

variable {f : Faults} {p : Policy} {c : Placement} {pin : Pin}

/-- Where no request is refused, a dry run settles a pin as a real run does. -/
theorem Rebalance.settledBy_of_dry
    (h : ∀ r ∈ Rebalance.request? p c false pin, f.pin pin.cid = none) :
    settledBy f p c true pin = settledBy f p c false pin := by
  rw [settledBy, settledBy, outcomeOf, outcomeOf]
  by_cases hnoop : (planFor p c pin).isNoop = true
  · rw [if_pos hnoop, if_pos hnoop]
  · rw [if_neg hnoop, if_neg hnoop, h _ (request?_of_not_isNoop hnoop)]
    rfl

/-- Where the request is not refused, a dry run says of it what a real run does. -/
theorem Migrate.sent_of_dry {r? : Option PinRequest} (h : ∀ r ∈ r?, f.pin pin.cid = none) :
    sent f true r? pin = sent f false r? pin := by
  cases r? with
  | none => rfl
  | some r =>
    rw [sent, sent, h r rfl]
    rfl

theorem Migrate.tagOutcome_of_dry {sizes : Dict Nat} {profile : String}
    (h : ∀ r ∈ tagRequest? f sizes profile pin, f.pin pin.cid = none) :
    tagOutcome f sizes profile true pin = tagOutcome f sizes profile false pin := by
  rw [tagOutcome, tagOutcome, sent_of_dry h]

/-- A broken pin as it is sorted out, before its recovery. -/
def Repair.BrokenPin.unrecovered (b : BrokenPin) : BrokenPin := { b with recovery := .none }

theorem Repair.unrecovered_recoveredBy (f : Faults) (dryRun : Bool) (b : BrokenPin) :
    (recoveredBy f dryRun b).unrecovered = b.unrecovered := by
  rw [recoveredBy]
  split <;> rfl

theorem Repair.recoveredBy_of_dry (f : Faults) (b : BrokenPin) : recoveredBy f true b = b := by
  rw [recoveredBy, passedOver, Bool.or_true, if_pos rfl]

theorem Repair.unrecovered_of_mem_classify {b : BrokenPin} (h : b ∈ classify p pin) :
    b.unrecovered = b := by
  rw [eq_of_mem_classify h]
  rfl

theorem Repair.map_unrecovered_classify (p : Policy) (pins : List Pin) :
    (pins.filterMap (classify p)).map (·.unrecovered) = pins.filterMap (classify p) := by
  refine (List.map_congr_left fun b hb => ?_).trans (List.map_id _)
  obtain ⟨pin, -, hb⟩ := List.mem_filterMap.1 hb
  exact unrecovered_of_mem_classify hb

end Pin

/-! ## The account that is foretold -/

/-- Account of a real run as a dry run gives it. -/
def Account.foretold : Account → Account
  | .rebalance r => .rebalance { r with dryRun := true }
  | .ensurePins r => .ensurePins { r with dryRun := true }
  | .tagPins r => .tagPins { r with dryRun := true }
  | .repair r => .repair { r with
      dryRun := true
      recovered := 0
      recoverErrors := 0
      brokenPins := r.brokenPins.map (·.unrecovered) }

theorem Account.severity_foretold (a : Account) : a.foretold.severity = a.severity := by
  cases a <;> rfl

/-- What is foretold of an account of broken pins is an account of them before their recovery. -/
theorem Account.foretold_ofBroken (total : Nat) (dryRun : Bool) (bs : List BrokenPin) :
    (Account.repair (.ofBroken total dryRun bs)).foretold
      = .repair (.ofBroken total true (bs.map (·.unrecovered))) := by
  have hrecoverable : ((bs.map (·.unrecovered)).filter (·.recoverable)).length
      = (bs.filter (·.recoverable)).length := by
    rw [List.filter_map, List.length_map]
    rfl
  have hlost : ((bs.map (·.unrecovered)).filter fun b => !b.recoverable).length
      = (bs.filter fun b => !b.recoverable).length := by
    rw [List.filter_map, List.length_map]
    rfl
  have hrecovered : (bs.map (·.unrecovered)).filter (·.recovered) = [] := by
    rw [List.filter_map, List.map_eq_nil_iff]
    exact List.filter_false bs
  have herrors : (bs.map (·.unrecovered)).filter (·.recoverError.isSome) = [] := by
    rw [List.filter_map, List.map_eq_nil_iff]
    exact List.filter_false bs
  simp only [foretold, Report.ofBroken, hrecoverable, hlost, hrecovered, herrors, List.length_map,
    List.length_nil]

namespace Pass

variable (host : String) {p : Policy} {s : Memory}

/-- A pass of which no request is refused asks for no pin whose requests fail. -/
theorem fault_of_not_refused (hs : s.DistinctCids) {pass : Pass}
    (hclear : pass.obstacle p s.faults = none)
    (hnot : ∀ cid, ¬Refused s ((pass.run host p false).run s).2 cid) {pin : Pin}
    (hpin : pin ∈ s.pins) {r : PinRequest} (hr : Call.pin r ∈ pass.callsAbout p false s pin) :
    s.faults.pin pin.cid = none := by
  have hcid : r.cid = pin.cid :=
    Option.some.inj ((about_callsAbout p false s pin pass).subject _ hr)
  by_contra hfails
  refine hnot pin.cid ⟨r, ?_, hcid, Option.isSome_iff_ne_none.2 hfails⟩
  rw [run_of_clear host hs hclear, callsUntil_moved]
  exact List.mem_append_right _ (List.mem_flatMap.2 ⟨pin, hpin, hr⟩)

/-- The account of a dry repair is the one that is foretold, also where recoveries fail. -/
theorem account_repair_of_dry (p : Policy) (s : Memory) :
    repair.account p true s = (repair.account p false s).foretold := by
  have hbroken : ∀ b ∈ s.pins.filterMap (classify p),
      recoveredBy s.faults true b = (recoveredBy s.faults false b).unrecovered := by
    intro b hb
    obtain ⟨pin, -, hb⟩ := List.mem_filterMap.1 hb
    rw [recoveredBy_of_dry, unrecovered_recoveredBy, unrecovered_of_mem_classify hb]
  rw [account, account, Account.foretold_ofBroken, List.map_map, List.map_congr_left hbroken]
  rfl

/-- Where no request is refused, the account of a dry run is the one that is foretold. -/
theorem account_of_dry {pass : Pass}
    (h : ∀ pin ∈ s.pins, ∀ r, Call.pin r ∈ pass.callsAbout p false s pin →
      s.faults.pin pin.cid = none) :
    pass.account p true s = (pass.account p false s).foretold := by
  cases pass with
  | rebalance =>
    have hsame : s.pins.map (settledBy s.faults p (.ofPolicy p s.freeSpace) true)
        = s.pins.map (settledBy s.faults p (.ofPolicy p s.freeSpace) false) :=
      List.map_congr_left fun pin hpin => settledBy_of_dry fun r hr =>
        h pin hpin r (List.mem_map_of_mem (Option.mem_toList.2 hr))
    rw [account, account, hsame]
    rfl
  | ensurePins profile =>
    have hsame : ∀ pin ∈ s.pins,
        sent s.faults true (ensureRequest? (peersFor p profile) pin) pin
          = sent s.faults false (ensureRequest? (peersFor p profile) pin) pin :=
      fun pin hpin => sent_of_dry fun r hr =>
        h pin hpin r (List.mem_map_of_mem (Option.mem_toList.2 hr))
    rw [account, account, List.map_congr_left fun pin hpin => by rw [hsame pin hpin]]
    rfl
  | tagPins profile =>
    have hsame : ∀ pin ∈ s.pins, tagOutcome s.faults s.dagSizes profile true pin
        = tagOutcome s.faults s.dagSizes profile false pin :=
      fun pin hpin => tagOutcome_of_dry fun r hr =>
        h pin hpin r (List.mem_append_right _ (List.mem_map_of_mem (Option.mem_toList.2 hr)))
    rw [account, account, List.map_congr_left fun pin hpin => by rw [hsame pin hpin]]
    rfl
  | repair => exact account_repair_of_dry p s

/-- The answer of a repair, whatever identifiers the pins have. -/
theorem answer_repair_of_clear {dryRun : Bool} (hclear : repair.obstacle p s.faults = none) :
    ((repair.run host p dryRun).run s).1 = .ok (repair.account p dryRun s) :=
  congrArg (fun r => (r.mapError Failure.transport).map Account.repair)
    (answer_repair host (Option.map_eq_none_iff.1 hclear))

/-- A dry run of a pass only reads. -/
theorem reads_run (host : String) (p : Policy) (pass : Pass) : Reads _ (pass.run host p true) := by
  have hdry : (Scan.plain (m := StateM Memory) true).dryRun ≠ false := Bool.false_ne_true.symm
  have hpause : Reads _ (Scan.plain true).pause := compositional_reads.pure ()
  cases pass with
  | rebalance =>
    refine compositional_reads.bind ?_ fun _ => compositional_reads.pure _
    exact compositional_reads.rebalance (fun _ => hpause) (absurd · hdry) (reads_freeSpace host)
      (reads_pins host) fun _ => compositional_reads.pure ()
  | ensurePins profile =>
    refine compositional_reads.bind ?_ fun _ => compositional_reads.pure _
    exact compositional_reads.ensurePins (fun _ => hpause) (absurd · hdry) (reads_pins host)
  | tagPins profile =>
    refine compositional_reads.bind ?_ fun _ => compositional_reads.pure _
    exact compositional_reads.tagPins (fun _ => hpause) (absurd · hdry) (reads_pins host)
      (reads_dagSize host)
  | repair =>
    refine compositional_reads.bind ?_ fun _ => compositional_reads.pure _
    exact compositional_reads.repair (fun _ => hpause) (absurd · hdry) (reads_pins host)

/-- **A dry run foretells the answer of the real run**: of a repair always, of another pass where
the identifiers are distinct and no request is refused. -/
theorem answer_of_dry {pass : Pass} (h : pass = .repair ∨
      s.DistinctCids ∧ ∀ cid, ¬Refused s ((pass.run host p false).run s).2 cid) :
    ((pass.run host p true).run s).1
      = ((pass.run host p false).run s).1.map Account.foretold := by
  cases hobstacle : pass.obstacle p s.faults with
  | some e =>
    rw [run_of_obstacle host hobstacle, run_of_obstacle host hobstacle]
    rfl
  | none =>
    rcases h with rfl | ⟨hs, hnot⟩
    -- The closed form of a repair wants distinct identifiers, its answer alone does not.
    · rw [answer_repair_of_clear host hobstacle, answer_repair_of_clear host hobstacle,
        account_repair_of_dry]
      rfl
    · have hsame := account_of_dry fun pin hpin r hr =>
        fault_of_not_refused host hs hobstacle hnot hpin hr
      rw [run_of_clear host hs hobstacle, run_of_clear host hs hobstacle, hsame]
      rfl

/-- **A dry run foretells and never acts.**  Whatever the policy, the pins and the calls that fail,
it asks for no change and leaves all as it was.  It answers what the real run answers, with the same
severity, but for the note that it was dry and for what became of recoveries. -/
theorem dry_run_foretells (host : String) (p : Policy) (s : Memory) (pass : Pass) :
    let dry := (pass.run host p true).run s
    let real := (pass.run host p false).run s
    (∃ calls, dry.2 = s.moved s.pins calls ∧ ∀ c ∈ calls, c.isWrite = false) ∧
      (pass = .repair ∨ s.DistinctCids ∧ (∀ cid, ¬Refused s real.2 cid) →
        dry.1 = real.1.map Account.foretold ∧
          dry.1.map Account.severity = real.1.map Account.severity) := by
  refine ⟨reads_run host p pass s, fun h => ?_⟩
  have hanswer := answer_of_dry host h
  refine ⟨hanswer, ?_⟩
  rw [hanswer]
  cases ((pass.run host p false).run s).1 with
  | error e => rfl
  | ok a => exact congrArg Except.ok a.severity_foretold

theorem dry_run_foretells_sample :
    let pass := ensurePins "acme"
    let dry := (pass.run "alpha" Sample.policy true).run Sample.memory
    let real := (pass.run "alpha" Sample.policy false).run Sample.memory
    Sample.memory.DistinctCids ∧ (∀ cid, ¬Refused Sample.memory real.2 cid) ∧
      (∃ calls, dry.2 = Sample.memory.moved Sample.memory.pins calls ∧
        ∀ c ∈ calls, c.isWrite = false) ∧
      dry.1 = real.1.map Account.foretold ∧ real.1.map Account.severity = .ok 1 := by
  intro pass dry real
  have hnot (cid : String) : ¬Refused Sample.memory real.2 cid := not_refused rfl _
  have ⟨hreads, hforetold⟩ := dry_run_foretells "alpha" Sample.policy Sample.memory pass
  exact ⟨by decide, hnot, hreads, (hforetold (.inr ⟨by decide, hnot⟩)).1, by decide⟩

end Pass

end PinKeeper
