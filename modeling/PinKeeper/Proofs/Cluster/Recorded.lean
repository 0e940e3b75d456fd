import PinKeeper.Cluster.Memory
import PinKeeper.Proofs.Answers

/-!
# Proofs/Cluster/Recorded — the calls of a program, whatever the cluster

A cluster in memory keeps a record of the calls, and its faults go by what a call is about.  A
cluster that answers as it likes, and the same call now so and now so, keeps none.  The record is
kept beside it (`Cluster.recorded`): each operation is that of the cluster, and writes down that it
was called.
-/

namespace PinKeeper

/-- An operation that writes down that it was called. -/
def Call.recording {m : Type → Type} [Monad m] {α : Type} (c : Call) (x : m α) :
    StateT (List Call) m α := do
  modify (· ++ [c])
  liftM x

/-- The cluster, in programs that keep a record of the calls. -/
def Cluster.recorded {m : Type → Type} [Monad m] (cluster : Cluster m) :
    Cluster (StateT (List Call) m) where
  host := cluster.host
  peers := Call.peers.recording cluster.peers
  pins := Call.pins.recording cluster.pins
  pinStatus cid := (Call.pinStatus cid).recording (cluster.pinStatus cid)
  add r := (Call.add cluster.host r).recording (cluster.add r)
  pin r := (Call.pin r).recording (cluster.pin r)
  unpin cid := (Call.unpin cid).recording (cluster.unpin cid)
  recover cid := (Call.recover cid).recording (cluster.recover cid)
  freeSpace := Call.freeSpace.recording cluster.freeSpace
  dagSize cid := (Call.dagSize cid).recording (cluster.dagSize cid)
  download host cid path := (Call.download host cid path).recording (cluster.download host cid path)

theorem run_recording {σ α : Type} {x : StateM σ α} {s t : σ} {a : α} (h : x.run s = (a, t))
    (c : Call) (calls : List Call) :
    ((c.recording x).run calls).run s = ((a, calls ++ [c]), t) := by
  have hnoted : ((modify (· ++ [c]) : StateT (List Call) (StateM σ) PUnit).run calls).run s
      = (((), calls ++ [c]), s) := rfl
  exact (run_bind_of_run_run hnoted).trans (run_run_liftM h (calls ++ [c]))

end PinKeeper
