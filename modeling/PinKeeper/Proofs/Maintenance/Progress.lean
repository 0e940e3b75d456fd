import PinKeeper.Proofs.Maintenance.Rebalance

/-!
# Proofs/Maintenance/Progress — what a rebalancing notes on its way

A run that is watched keeps its notes beside the memory (`watched`).  Watching changes nothing:
the report, the pins that are left and the calls are those of a run of which nobody takes note, and
the notes can be read off what became of the pins (`notesFrom`).
-/

namespace PinKeeper

variable {m : Type → Type} [Monad m]

/-- The cluster, in programs that keep notes beside. -/
def Cluster.noting (ν : Type) (c : Cluster m) : Cluster (StateT (List ν) m) where
  host := c.host
  peers := liftM c.peers
  pins := liftM c.pins
  pinStatus cid := liftM (c.pinStatus cid)
  add r := liftM (c.add r)
  pin r := liftM (c.pin r)
  unpin cid := liftM (c.unpin cid)
  recover cid := liftM (c.recover cid)
  freeSpace := liftM c.freeSpace
  dagSize cid := liftM (c.dagSize cid)
  download host cid path := liftM (c.download host cid path)

namespace Rebalance

open Memory

/-! ## The notes -/

/-- Notes on pins of which `done` of `total` are settled already. -/
def notesFrom (total : Nat) : (done : Nat) → List Settled → List Progress
  | _, [] => []
  | done, x :: xs =>
    ⟨done + 1, total, x.pin.cid, x.outcome⟩ :: notesFrom total (done + 1) xs

section Notes

variable (total : Nat)

theorem map_done_notesFrom : ∀ (done : Nat) (xs : List Settled),
    (notesFrom total done xs).map (·.done) = List.range' (done + 1) xs.length
  | _, [] => rfl
  | done, x :: xs => by
    rw [notesFrom, List.map_cons, map_done_notesFrom (done + 1) xs, List.length_cons,
      List.range'_succ]

theorem map_cid_notesFrom : ∀ (done : Nat) (xs : List Settled),
    (notesFrom total done xs).map (·.cid) = xs.map (·.pin.cid)
  | _, [] => rfl
  | done, x :: xs => by
    rw [notesFrom, List.map_cons, map_cid_notesFrom (done + 1) xs, List.map_cons]

theorem map_outcome_notesFrom : ∀ (done : Nat) (xs : List Settled),
    (notesFrom total done xs).map (·.outcome) = xs.map (·.outcome)
  | _, [] => rfl
  | done, x :: xs => by
    rw [notesFrom, List.map_cons, map_outcome_notesFrom (done + 1) xs, List.map_cons]

theorem total_of_mem_notesFrom {x : Progress} : ∀ {done : Nat} {xs : List Settled},
    x ∈ notesFrom total done xs → x.total = total
  | _, [], h => absurd h List.not_mem_nil
  | _, y :: ys, h => by
    rcases List.mem_cons.1 h with rfl | h
    · rfl
    · exact total_of_mem_notesFrom h

end Notes

/-! ## A run that is watched -/

section Watched

variable [LawfulMonad m] (cluster : Cluster m) (p : Policy) (c : Placement) (dryRun : Bool)

/-- Settling a pin answers with that pin and its plan. -/
theorem settle_eq_map (scan : Scan m) (pin : Pin) : ∃ outcome : m Outcome,
    settle cluster p c scan pin = (Settled.mk pin (planFor p c pin)) <$> outcome := by
  -- The outcome alone is what the same program answers; nothing is run twice.
  refine ⟨(·.outcome) <$> settle cluster p c scan pin, ?_⟩
  rw [← comp_map, settle]
  by_cases hnoop : (planFor p c pin).isNoop = true
  · rw [if_pos hnoop, map_pure]
    rfl
  rw [if_neg hnoop]
  by_cases hdry : scan.dryRun = true
  · rw [if_pos hdry, map_pure]
    rfl
  · rw [if_neg hdry, map_bind]
    refine bind_congr fun answer => ?_
    rw [map_bind]
    refine bind_congr fun _ => ?_
    cases answer <;>
    · rw [map_pure]
      rfl

/-- Watching does not change how a pin is settled. -/
theorem run_settle_noting (pin : Pin) (notes : List Progress) :
    (settle (cluster.noting Progress) p c (.plain dryRun) pin).run notes
      = do return (← settle cluster p c (.plain dryRun) pin, notes) := by
  rw [settle, settle]
  by_cases hnoop : (planFor p c pin).isNoop = true
  · rw [if_pos hnoop, if_pos hnoop, StateT.run_pure, pure_bind]
  rw [if_neg hnoop, if_neg hnoop, Scan.plain, Scan.plain]
  cases dryRun with
  | true => rw [if_pos rfl, if_pos rfl, StateT.run_pure, pure_bind]
  | false =>
    rw [if_neg Bool.false_ne_true, if_neg Bool.false_ne_true, Cluster.noting]
    simp only [StateT.run_bind, liftM, StateT.run_monadLift, bind_assoc, pure_bind]
    refine bind_congr fun answer => ?_
    cases answer <;> simp

/-- The notes follow the pins as they are settled. -/
theorem run_settleAll_noting (total : Nat) : ∀ (done : Nat) (pins : List Pin)
    (notes : List Progress),
    (settleAll (cluster.noting Progress) p c (.plain dryRun) (fun x => modify (· ++ [x])) total
        done pins).run notes
      = do
        let settled ← pins.mapM (settle cluster p c (.plain dryRun))
        return (settled, notes ++ notesFrom total done settled)
  | done, [], notes => by simp [settleAll, notesFrom]
  | done, pin :: pins, notes => by
    have ih := run_settleAll_noting total (done + 1) pins
    obtain ⟨outcome, hsettle⟩ := settle_eq_map cluster p c (.plain dryRun) pin
    simp [settleAll, run_settle_noting, ih, notesFrom, hsettle]

end Watched

/-- A rebalancing without pauses that keeps notes. -/
def watched (host : String) (p : Policy) (dryRun : Bool) :
    StateT (List Progress) (StateM Memory) (Except Failure Report) :=
  rebalance ((cluster host).noting Progress) p (.plain dryRun) fun x => modify (· ++ [x])

/-- A program that keeps notes goes on from what an operation answered and left. -/
theorem run_liftM_bind {ν α β : Type} {x : StateM Memory α}
    {f : α → StateT (List ν) (StateM Memory) β} {notes : List ν} {s t : Memory} {a : α}
    (h : x.run s = (a, t)) :
    ((liftM x >>= f).run notes).run s = ((f a).run notes).run t :=
  run_bind_of_run_run (run_run_liftM h notes)

/-- **Watching changes nothing**, and the notes tell what became of each pin. -/
theorem run_watched (host : String) {p : Policy} {s : Memory} (dryRun : Bool)
    (hs : s.DistinctCids) (h : Possible p s.faults) :
    ((watched host p dryRun).run []).run s =
      ((((run host p dryRun).run s).1, notesFrom s.pins.length 0
          (s.pins.map (settledBy s.faults p (.ofPolicy p s.freeSpace) dryRun))),
        ((run host p dryRun).run s).2) := by
  have hplace : InPlace s (settle (cluster host) p (.ofPolicy p s.freeSpace) (.plain dryRun))
      _ _ _ := settle_inPlace host s
  have hsettle := hplace.run_mapM hs [.freeSpace, .pins]
  rw [run_of_possible dryRun host hs h]
  obtain ⟨hbounds, hspace, hpins⟩ := h
  have hfree : (cluster host).freeSpace.run s = (.ok s.freeSpace, s.moved s.pins [.freeSpace]) := by
    rw [run_freeSpace, hspace]
    rfl
  have hlist : (cluster host).pins.run (s.moved s.pins [.freeSpace])
      = (.ok s.pins, s.moved s.pins [.freeSpace, .pins]) := run_pins_moved host hpins s.pins _
  rw [watched, rebalance, hbounds, Bool.not_true, if_neg Bool.false_ne_true]
  refine (run_liftM_bind hfree).trans ((run_liftM_bind hlist).trans ?_)
  change StateT.run (StateT.run (settleAll ((cluster host).noting Progress) _ _ _ _ _ _ _ >>= _) _)
    _ = _
  rw [StateT.run_bind, run_settleAll_noting, bind_assoc, run_bind_of_run hsettle]
  rfl

end Rebalance

end PinKeeper
