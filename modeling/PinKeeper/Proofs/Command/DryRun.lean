import PinKeeper.Proofs.Command.Environment
import PinKeeper.Proofs.Http.Requests
import PinKeeper.Proofs.Maintenance.Parts
import PinKeeper.Time.Epoch

/-!
# Proofs/Command/DryRun — what makes a command a dry run

A pass over all pins is made of requests that read and of the changes that it asks for, the latter
only where it is not dry (`Context.repair_of_parts`, `Context.rebalance_of_parts`).  It is dry if
the command line says so, and then every request that it sends asks for no change, whatever the
server answers (`Compositional.program`).  The environment has a variable for the same, which the
settings of a pass read and the command line overrules: a run with the variable is the run without
it (`dry_run_by_flag_alone`), and may write (`variable_does_not_make_dry`).
-/

namespace PinKeeper

namespace Command

/-- True for a pass over all pins that is to be dry. -/
def Action.isDry : Action → Bool
  | .repair dryRun | .rebalance dryRun | .ensurePins _ dryRun | .tagPins _ dryRun => dryRun
  | _ => false

/-! ## Passes by their parts -/

/-- Host of the commands that go by no profile. -/
def Context.node (c : Context) : String := (c.policy.targetHost none c.host).getD ""

/-- A command is run at the host, or not at all. -/
theorem Context.onCluster_eq_or {m : Type → Type} [Monad m] (w : World m) (c : Context)
    (command : Cluster m → m (Except Trouble Ending)) :
    c.onCluster w command = command (c.clusterAt w c.node) ∨
      c.onCluster w command = pure (.error .noHost) := by
  rw [onCluster, node]
  split
  · next host hhost =>
    rw [hhost]
    exact .inl rfl
  · exact .inr rfl

theorem Context.onCluster_of_parts {m : Type → Type} [Monad m] {P : (α : Type) → m α → Prop}
    (h : Compositional P) {w : World m} {c : Context}
    {command : Cluster m → m (Except Trouble Ending)}
    (hcommand : P _ (command (c.clusterAt w c.node))) : P _ (c.onCluster w command) := by
  rcases onCluster_eq_or w c command with heq | heq
  · rw [heq]
    exact hcommand
  · rw [heq]
    exact h.pure _

section Passes

variable {m : Type → Type} [Monad m] {P : (α : Type) → m α → Prop} (h : Compositional P)
  {w : World m} {c : Context} {profile : String} {dryRun : Bool}
  (hlog : ∀ note, P _ (w.transport.log note)) (hnow : P _ w.now)
  (hpause : ∀ delay, P _ (w.pause delay))
  (hread : ∀ r, r.isRead = true → P _ (Http.send w.transport r))

include h hlog hnow hpause hread

theorem Context.repair_of_parts
    (hrecover : dryRun = false → ∀ cid, P _ ((c.clusterAt w c.node).recover cid)) :
    P _ (c.repair w dryRun) := by
  refine onCluster_of_parts h (h.bind ?_ fun _ => h.bind hnow fun _ => h.pure _)
  exact h.repair (fun _ => hpause _) hrecover (h.pins hlog hread)

variable (hpin : dryRun = false → ∀ q, P _ ((c.clusterAt w c.node).pin q))

include hpin

theorem Context.rebalance_of_parts : P _ (c.rebalance w dryRun) := by
  refine onCluster_of_parts h (h.bind ?_ fun _ => h.bind hnow fun _ => h.pure _)
  exact h.rebalance (fun _ => hpause _) hpin (h.freeSpace hlog hread) (h.pins hlog hread)
    fun _ => h.pure _

theorem Context.ensurePins_of_parts : P _ (c.ensurePins w profile dryRun) := by
  refine onCluster_of_parts h (h.bind ?_ fun _ => h.bind hnow fun _ => h.pure _)
  exact h.ensurePins (fun _ => hpause _) hpin (h.pins hlog hread)

theorem Context.tagPins_of_parts : P _ (c.tagPins w profile dryRun) := by
  refine onCluster_of_parts h (h.bind ?_ fun _ => h.bind hnow fun _ => h.pure _)
  exact h.tagPins (fun _ => hpause _) hpin (h.pins hlog hread) (h.dagSize hlog hread)

end Passes

end Command

/-! ## A dry run reads -/

namespace Compositional

open Command Http

variable {m : Type → Type} [Monad m] {P : (α : Type) → m α → Prop} (h : Compositional P)
  {w : World m} (hlog : ∀ note, P _ (w.transport.log note)) (hnow : P _ w.now)
  (hpause : ∀ delay, P _ (w.pause delay))
  (hexchange : ∀ r, r.isRead = true → P _ (w.transport.exchange r))

include h hlog hnow hpause hexchange

theorem act {c : Context} {a : Action} (ha : a.isDry = true) : P _ (act w c a) := by
  have hread := send_of_isRead h hlog hexchange
  cases a with
  | repair dryRun =>
    obtain rfl : dryRun = true := ha
    exact Context.repair_of_parts h hlog hnow hpause hread nofun
  | rebalance dryRun =>
    obtain rfl : dryRun = true := ha
    exact Context.rebalance_of_parts h hlog hnow hpause hread nofun
  | ensurePins profile dryRun =>
    obtain rfl : dryRun = true := ha
    exact Context.ensurePins_of_parts h hlog hnow hpause hread nofun
  | tagPins profile dryRun =>
    obtain rfl : dryRun = true := ha
    exact Context.tagPins_of_parts h hlog hnow hpause hread nofun
  | _ => cases ha

theorem program (hlookup : ∀ path, P _ (w.lookup path)) {args : List String} {i : Invocation}
    {a : Action} (hread : Invocation.read w.environment args = .ok i) (htask : i.task = .act a)
    (ha : a.isDry = true) : P _ (program w args) := by
  have hrun : P _ (run w i) := by
    rw [run]
    split
    · exact h.pure _
    · rw [htask]
      refine h.bind (h.bind (hlookup _) fun _ => h.pure _) fun _ => ?_
      split
      · exact h.pure _
      · exact act h hlog hnow hpause hexchange ha
  rw [Command.program, hread]
  exact h.bind hrun fun _ => h.pure _

end Compositional

/-! ## A small world

Its policy file is blank, and a node answers every request with one pin that failed on a peer. -/

namespace Sample

/-- Pin that failed on one of two peers. -/
def answer : String :=
  Json.compact (.object [("cid", .text "few"), ("peer_map", .object
    [("A", .object [("status", .text "pin_error")]), ("B", .object [("status", .text "pinned")])])])

def world (env : Environment) : Command.World (StateM Unit) where
  transport :=
    { exchange := fun _ => return some (.plain 200 answer)
      write := fun _ _ => return .ok ()
      log := fun _ => return ()
      decode := Http.bodyText }
  lookup _ := return .ok (.file (.ofText "") Disk.defaultMode)
  makeDirs _ := return .ok ()
  now := return .ofClock 0 0
  pause _ := return ()
  environment := env
  home := none

/-- Command line that asks for a repair. -/
def repairing : List String := ["--config-file", "cfg.yml", "--host", "127.0.0.1", "repair"]

end Sample

/-! ## What makes a run dry -/

namespace Command

/-- The world, in programs that keep a record of the requests. -/
def World.recorded {m : Type → Type} [Monad m] (w : World m) :
    World (StateT (List Http.Request) m) where
  transport := w.transport.recorded
  lookup path := liftM (w.lookup path)
  makeDirs path := liftM (w.makeDirs path)
  now := liftM w.now
  pause delay := liftM (w.pause delay)
  environment := w.environment
  home := w.home

/-- Requests of a run of the program. -/
def requests {σ : Type} (w : World (StateM σ)) (args : List String) (s : σ) : List Http.Request :=
  (((program w.recorded args).run []).run s).1.2

/-- **The flag makes a run dry, and nothing else does.**  With the flag a pass over all pins sends
no request that asks for a change, whatever the world outside is like.  Which value the variable
has, if it has one, makes no difference to any run. -/
theorem dry_run_by_flag_alone {σ : Type} (w : World (StateM σ)) (args : List String) :
    (∀ i a, Invocation.read w.environment args = .ok i → i.task = .act a → a.isDry = true →
      ∀ s, ∀ r ∈ requests w args s, r.isRead = true) ∧
      ∀ env : Environment,
        (∀ name, name ≠ "CCS_DRY_RUN" → env.lookup name = w.environment.lookup name) →
          program (w.withEnvironment env) args = program w args := by
  constructor
  · intro i a hread htask ha s
    have hsends : Http.SendsOnly (fun r => r.isRead = true) Exit (program w.recorded args) :=
      Http.compositional_sendsOnly.program (fun _ => Http.sendsOnly_lift _)
        (Http.sendsOnly_lift _) (fun _ => Http.sendsOnly_lift _)
        (fun _ hr => Http.sendsOnly_exchange w.transport hr) (fun _ => Http.sendsOnly_lift _)
        hread htask ha
    obtain ⟨sent, hrecord, hsent⟩ := hsends [] s
    rw [requests, hrecord]
    exact hsent
  · intro env hother
    have hagree : Agree env w.environment := fun name hname => hother name fun heq => by
      have hnot : "CCS_DRY_RUN" ∉ runVariables := by decide
      exact hnot (heq ▸ hname)
    exact program_congr hagree w args

theorem dry_run_by_flag_alone_sample :
    let w := Sample.world [("CCS_DRY_RUN", "0")]
    let args := Sample.repairing ++ ["--dry-run"]
    let i : Invocation := ⟨some "cfg.yml", some "127.0.0.1", false, false, .act (.repair true)⟩
    Invocation.read w.environment args = .ok i ∧ (∀ r ∈ requests w args (), r.isRead = true) ∧
      program (w.withEnvironment [("CCS_DRY_RUN", "1")]) args = program w args := by
  intro w args i
  have hread : Invocation.read w.environment args = .ok i := rfl
  have ⟨hflag, hvariable⟩ := dry_run_by_flag_alone w args
  refine ⟨hread, hflag i (.repair true) hread rfl rfl (), hvariable _ fun name hname => ?_⟩
  have hlookup (value : String) : List.lookup name [("CCS_DRY_RUN", value)] = none := by
    rw [List.lookup_cons, beq_eq_false_iff_ne.2 hname, List.lookup_nil]
  exact (hlookup "1").trans (hlookup "0").symm

/-- A run with the variable asks for the recovery of a pin. -/
theorem variable_does_not_make_dry :
    let w := Sample.world [("CCS_DRY_RUN", "1")]
    (ScanSettings.ofEnvironment w.environment).dryRun = true ∧
      (requests w Sample.repairing ()).map (fun r => (r.method, r.url.path))
        = [(.get, "/pins"), (.post, "/pins/few/recover")] := by
  decide +kernel

end Command

end PinKeeper
