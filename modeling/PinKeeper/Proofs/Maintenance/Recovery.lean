import PinKeeper.Proofs.Cluster.Recorded
import PinKeeper.Proofs.Maintenance.DryRun

/-!
# Proofs/Maintenance/Recovery — a repair asks for each recovery once and tells what came of it

A repair passes over a broken pin that is lost, and asks for the recovery of each other one, in the
order of the pins.  What it says of the pins afterwards is settled by the answers (`Told`), of which
nothing is assumed: the cluster may answer the same call now so and now so.  The counts of the
report follow by one induction over the broken pins and their answers (`Told.accounts`).
-/

namespace PinKeeper.Repair

open Memory

/-! ## One pass over the broken pins -/

/-- What became of a recovery, by the answer to the call. -/
def Recovery.ofAnswer : Except ClusterError Unit → Recovery
  | .ok _ => .triggered
  | .error e => .failed e

/-- Identifiers of the broken pins that can be recovered. -/
def recoverableCids (bs : List BrokenPin) : List String :=
  (bs.filter (·.recoverable)).map (·.cid)

/-- Broken pins before a repair, the answers that came, and the broken pins as they are reported.
There is an answer for each pin that can be recovered, and none for a lost one. -/
inductive Told : List BrokenPin → List (Except ClusterError Unit) → List BrokenPin → Prop
  | nil : Told [] [] []
  | lost {b : BrokenPin} {bs bs' : List BrokenPin} {answers : List (Except ClusterError Unit)} :
      b.recoverable = false → Told bs answers bs' → Told (b :: bs) answers (b :: bs')
  | tried {b : BrokenPin} {bs bs' : List BrokenPin} {answers : List (Except ClusterError Unit)}
      (answer : Except ClusterError Unit) : b.recoverable = true → Told bs answers bs' →
        Told (b :: bs) (answer :: answers) ({ b with recovery := .ofAnswer answer } :: bs')

section Step

variable {m : Type → Type} [Monad m] {cluster : Cluster m} {b : BrokenPin}

theorem recover_of_lost (scan : Scan m) (h : b.recoverable = false) :
    recover cluster scan b = pure b := by
  rw [recover, h, Bool.not_false, Bool.true_or, if_pos rfl]

theorem recoverAll_of_lost [LawfulMonad m] (scan : Scan m) : ∀ {bs : List BrokenPin},
    (∀ b ∈ bs, b.recoverable = false) → recoverAll cluster scan bs = pure bs
  | [], _ => rfl
  | b :: bs, h => by
    obtain ⟨hb, hbs⟩ := List.forall_mem_cons.1 h
    rw [recoverAll, recover_of_lost scan hb, pure_bind, recoverAll_of_lost scan hbs, pure_bind]

theorem recover_of_recoverable [LawfulMonad m] (h : b.recoverable = true) :
    recover cluster (.plain false) b
      = do return { b with recovery := .ofAnswer (← cluster.recover b.cid) } := by
  have hnot : ¬(!b.recoverable || (Scan.plain (m := m) false).dryRun) = true := by
    rw [h]
    exact Bool.false_ne_true
  rw [recover, if_neg hnot]
  refine bind_congr fun answer => ?_
  rw [Scan.plain, pure_bind]
  cases answer <;> rfl

end Step

section Run

variable {σ : Type} (cluster : Cluster (StateM σ))

/-- **A repair asks for each recovery once**, in the order of the pins and for no lost one, and
tells of the answers. -/
theorem exists_told : ∀ (bs : List BrokenPin) (calls : List Call) (s : σ), ∃ answers bs' t,
    Told bs answers bs' ∧ ((recoverableCids bs).mapM cluster.recover).run s = (answers, t) ∧
      (recoverAll cluster (.plain false) bs).run s = (bs', t) ∧
      ((recoverAll cluster.recorded (.plain false) bs).run calls).run s
        = ((bs', calls ++ (recoverableCids bs).map .recover), t)
  | [], calls, s => by
    refine ⟨[], [], s, .nil, rfl, rfl, ?_⟩
    rw [recoverableCids, List.filter_nil, List.map_nil, List.map_nil, List.append_nil]
    rfl
  | b :: bs, calls, s => by
    cases hb : b.recoverable with
    | false =>
      obtain ⟨answers, bs', t, htold, hasked, hrun, hrecord⟩ := exists_told bs calls s
      have hcids : recoverableCids (b :: bs) = recoverableCids bs := by
        rw [recoverableCids, List.filter_cons_of_neg (by rw [hb]; exact Bool.false_ne_true)]
        rfl
      refine ⟨answers, b :: bs', t, .lost hb htold, by rwa [hcids], ?_, ?_⟩
      · rw [recoverAll, recover_of_lost _ hb, pure_bind, run_bind_of_run hrun]
        rfl
      · rw [recoverAll, recover_of_lost _ hb, pure_bind, run_bind_of_run_run hrecord, hcids]
        rfl
    | true =>
      obtain ⟨answer, u, hanswer⟩ : ∃ answer u, (cluster.recover b.cid).run s = (answer, u) :=
        ⟨_, _, rfl⟩
      obtain ⟨answers, bs', t, htold, hasked, hrun, hrecord⟩ :=
        exists_told bs (calls ++ [.recover b.cid]) u
      have hcids : recoverableCids (b :: bs) = b.cid :: recoverableCids bs := by
        rw [recoverableCids, List.filter_cons_of_pos hb, List.map_cons]
        rfl
      refine ⟨answer :: answers, _, t, .tried answer hb htold, ?_, ?_, ?_⟩
      · rw [hcids, List.mapM_cons, run_bind_of_run hanswer, run_bind_of_run hasked]
        rfl
      · rw [recoverAll, recover_of_recoverable hb, bind_assoc, run_bind_of_run hanswer, pure_bind,
          run_bind_of_run hrun]
        rfl
      · have hcall : ((cluster.recorded.recover b.cid).run calls).run s
            = ((answer, calls ++ [.recover b.cid]), u) := run_recording hanswer _ calls
        rw [recoverAll, recover_of_recoverable hb, bind_assoc, run_bind_of_run_run hcall, pure_bind,
          run_bind_of_run_run hrecord, hcids, List.map_cons, List.append_assoc]
        rfl

end Run

/-! ## The account -/

/-- A pin that was tried has an answer, and one answer only. -/
theorem BrokenPin.recovered_eq_not {b : BrokenPin} (h : b.recovery ≠ .none) :
    b.recovered = !b.recoverError.isSome := by
  rw [recovered, recoverError]
  cases hb : b.recovery with
  | none => exact absurd hb h
  | triggered | failed => rfl

theorem BrokenPin.not_recovered {b : BrokenPin} (h : b.recovery = .none) :
    b.recovered = false ∧ b.recoverError = none := by
  rw [recovered, recoverError, h]
  exact ⟨rfl, rfl⟩

@[simp] theorem recoverable_with_recovery (b : BrokenPin) (recovery : Recovery) :
    { b with recovery := recovery }.recoverable = b.recoverable := rfl

@[simp] theorem recovered_with_answer (b : BrokenPin) (answer : Except ClusterError Unit) :
    { b with recovery := .ofAnswer answer }.recovered = answer.isOk := by
  cases answer <;> rfl

@[simp] theorem recoverError_with_answer (b : BrokenPin) (answer : Except ClusterError Unit) :
    { b with recovery := .ofAnswer answer }.recoverError.isSome = !answer.isOk := by
  cases answer <;> rfl

section Told

variable {bs bs' : List BrokenPin} {answers : List (Except ClusterError Unit)}

/-- The lost pins are told of as they are. -/
theorem Told.filter_lost (h : Told bs answers bs') :
    (bs'.filter fun b => !b.recoverable) = bs.filter fun b => !b.recoverable := by
  induction h with
  | nil => rfl
  | lost hb _ ih => simp [hb, ih]
  | tried answer hb _ ih => simp [hb, ih]

/-- What is told of the others are the answers, in their order. -/
theorem Told.map_recovery (h : Told bs answers bs') :
    (bs'.filter (·.recoverable)).map (·.recovery) = answers.map .ofAnswer := by
  induction h with
  | nil => rfl
  | lost hb _ ih => simp [hb, ih]
  | tried answer hb _ ih => simp [hb, ih]

theorem Told.map_unrecovered (h : Told bs answers bs') :
    bs'.map (·.unrecovered) = bs.map (·.unrecovered) := by
  induction h with
  | nil => rfl
  | lost _ _ ih => rw [List.map_cons, List.map_cons, ih]
  | tried _ _ _ ih =>
    rw [List.map_cons, List.map_cons, ih]
    rfl

/-- **A recovery is told of exactly where it can be asked for.** -/
theorem Told.recovery_eq_none_iff (h : Told bs answers bs') (hbs : ∀ b ∈ bs, b.recovery = .none) :
    ∀ b ∈ bs', (b.recovery = .none ↔ b.recoverable = false) := by
  induction h with
  | nil => exact nofun
  | lost hb _ ih =>
    obtain ⟨hnone, hbs⟩ := List.forall_mem_cons.1 hbs
    exact List.forall_mem_cons.2 ⟨iff_of_true hnone hb, ih hbs⟩
  | @tried b _ _ _ answer hb _ ih =>
    obtain ⟨-, hbs⟩ := List.forall_mem_cons.1 hbs
    refine List.forall_mem_cons.2 ⟨iff_of_false ?_ (ne_false_of_eq_true hb), ih hbs⟩
    cases answer <;> exact nofun

/-- **The answers are counted**: the recoveries that were triggered, and those that failed. -/
theorem Told.length_answered (h : Told bs answers bs') (hbs : ∀ b ∈ bs, b.recovery = .none) :
    (bs'.filter (·.recovered)).length = (answers.filter (·.isOk)).length ∧
      (bs'.filter (·.recoverError.isSome)).length = (answers.filter fun a => !a.isOk).length := by
  induction h with
  | nil => exact ⟨rfl, rfl⟩
  | lost hb _ ih =>
    obtain ⟨hnone, hbs⟩ := List.forall_mem_cons.1 hbs
    obtain ⟨hrecovered, herror⟩ := BrokenPin.not_recovered hnone
    simp [hrecovered, herror, ih hbs]
  | tried answer hb _ ih =>
    obtain ⟨-, hbs⟩ := List.forall_mem_cons.1 hbs
    cases hanswer : answer.isOk <;> simp [hanswer, ih hbs]

end Told

/-- Account of a repair of listed pins, by the answers to the recoveries. -/
structure Report.Accounts (p : Policy) (pins : List Pin)
    (answers : List (Except ClusterError Unit)) (r : Report) : Prop where
  total : r.total = pins.length
  classified : r.brokenPins.map (·.unrecovered) = pins.filterMap (classify p)
  broken : r.broken = r.brokenPins.length
  lost : r.lost = (r.brokenPins.filter fun b => !b.recoverable).length
  broken_eq_add : r.broken = r.recoverable + r.lost
  recoverable_eq_add : r.recoverable = r.recovered + r.recoverErrors
  answered : (r.brokenPins.filter (·.recoverable)).map (·.recovery) = answers.map .ofAnswer
  recovered : r.recovered = (answers.filter (·.isOk)).length
  recoverErrors : r.recoverErrors = (answers.filter fun a => !a.isOk).length
  /-- It is told that the recovery was triggered, or why it was not. -/
  tried : ∀ b ∈ r.brokenPins, b.recoverable = true → b.recovered = !b.recoverError.isSome
  passedOver : ∀ b ∈ r.brokenPins, b.recoverable = false →
    b.recovered = false ∧ b.recoverError = none

theorem recovery_eq_none_of_mem {p : Policy} {pins : List Pin} {b : BrokenPin}
    (h : b ∈ pins.filterMap (classify p)) : b.recovery = .none := by
  obtain ⟨pin, -, hb⟩ := List.mem_filterMap.1 h
  rw [eq_of_mem_classify hb]

/-- **The account adds up**, whatever the answers. -/
theorem Told.accounts {p : Policy} {pins : List Pin} {bs' : List BrokenPin}
    {answers : List (Except ClusterError Unit)}
    (h : Told (pins.filterMap (classify p)) answers bs') :
    (Report.ofBroken pins.length false bs').Accounts p pins answers := by
  have hnone : ∀ b ∈ pins.filterMap (classify p), b.recovery = .none :=
    fun b hb => recovery_eq_none_of_mem hb
  have hrecovery := h.recovery_eq_none_iff hnone
  obtain ⟨hrecovered, herrors⟩ := h.length_answered hnone
  have hanswers : (bs'.filter (·.recoverable)).length = answers.length := by
    rw [← List.length_map (·.recovery), h.map_recovery, List.length_map]
  refine ⟨rfl, h.map_unrecovered.trans (map_unrecovered_classify p pins), rfl, rfl,
    List.length_eq_length_filter_add _, ?_, h.map_recovery, hrecovered, herrors,
    fun b hb hrecoverable => ?_, fun b hb hlost => ?_⟩
  · calc (bs'.filter (·.recoverable)).length
      _ = answers.length := hanswers
      _ = (answers.filter (·.isOk)).length + (answers.filter fun a => !a.isOk).length :=
        List.length_eq_length_filter_add _
      _ = (bs'.filter (·.recovered)).length + (bs'.filter (·.recoverError.isSome)).length := by
        rw [hrecovered, herrors]
  · refine BrokenPin.recovered_eq_not fun hnone => ?_
    rw [(hrecovery b hb).1 hnone] at hrecoverable
    cases hrecoverable
  · exact BrokenPin.not_recovered ((hrecovery b hb).2 hlost)

/-- Where no failure is counted, every recovery has succeeded. -/
theorem Report.Accounts.eq_ok {p : Policy} {pins : List Pin}
    {answers : List (Except ClusterError Unit)} {r : Report} (h : r.Accounts p pins answers)
    (hnone : r.recoverErrors = 0) : ∀ answer ∈ answers, answer = .ok () := by
  have hfailed : (answers.filter fun a => !a.isOk) = [] :=
    List.eq_nil_of_length_eq_zero (h.recoverErrors ▸ hnone)
  intro answer hanswer
  have hisOk := List.filter_eq_nil_iff.1 hfailed answer hanswer
  cases answer with
  | ok => rfl
  | error => exact absurd rfl hisOk

/-! ## The run -/

/-- True for a broken pin that can be recovered. -/
def isRecoverable (p : Policy) (pin : Pin) : Bool := (classify p pin).any (·.recoverable)

/-- The identifiers of the broken pins are those of the pins, in the same order. -/
theorem recoverableCids_classify (p : Policy) (pins : List Pin) :
    recoverableCids (pins.filterMap (classify p))
      = (pins.filter (isRecoverable p)).map (·.cid) :=
  map_filter_classify p _ (fun _ _ hb => cid_of_mem_classify hb) pins

/-- **A repair in one line**: it lists the pins, asks for the recoveries and accounts for the
answers. -/
theorem exists_account {σ : Type} {cluster : Cluster (StateM σ)} (p : Policy) {s t : σ}
    {pins : List Pin} (hpins : cluster.pins.run s = (.ok pins, t)) :
    let cids := (pins.filter (isRecoverable p)).map (·.cid)
    ∃ answers report u, Told (pins.filterMap (classify p)) answers report.brokenPins ∧
      report.Accounts p pins answers ∧ (cids.mapM cluster.recover).run t = (answers, u) ∧
      (repair cluster p (.plain false)).run s = (.ok report, u) ∧
      ((repair cluster.recorded p (.plain false)).run []).run s
        = ((.ok report, .pins :: cids.map .recover), u) := by
  intro cids
  obtain ⟨answers, bs', u, htold, hasked, hrun, hrecord⟩ :=
    exists_told cluster (pins.filterMap (classify p)) [.pins] t
  have hlisted : (cluster.recorded.pins.run []).run s = ((.ok pins, [.pins]), t) :=
    run_recording hpins .pins []
  rw [recoverableCids_classify] at hasked hrecord
  refine ⟨answers, .ofBroken pins.length false bs', u, htold, htold.accounts, hasked, ?_, ?_⟩
  · rw [repair, run_bind_of_run hpins, run_bind_of_run hrun]
    rfl
  · rw [repair, run_bind_of_run_run hlisted, run_bind_of_run_run hrecord]
    rfl

end PinKeeper.Repair
