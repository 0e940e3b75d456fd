import PinKeeper.Proofs.Command.Secrecy

/-!
# Proofs/Command/Hostless — runs that have no host to turn to

A command on the cluster goes to the host that the command line names, or else to the default node.
Where there is neither it ends before it does anything (`hostless_run`): no request is sent, no file
is written and nobody is asked for the time.

It is the policy that is at fault then, and an addition says so: it goes to the primary of its
profile, and where it finds no host either its exit code is 3 (`hostless_addition`).  The other
commands end with a trouble that has no cause in it, and so with the exit code 2 of a cluster that
cannot be reached (`hostless_exit_is_two`).
-/

namespace PinKeeper.Command

variable {τ : Type} (o : Surroundings τ) {c : Context}

/-! ## Without a host -/

theorem Context.onCluster_hostless {m : Type → Type} [Monad m] (w : World m) (hhost : c.host = none)
    (hdefault : c.policy.defaultNode = none) (command : Cluster m → m (Except Trouble Ending)) :
    c.onCluster w command = pure (.error .noHost) := by
  have hnone : c.policy.targetHost none c.host = none := by
    rw [hhost, Policy.targetHost, hdefault]
    rfl
  rw [onCluster, hnone]

/-- **Every command but an addition turns to the cluster first**, and ends if there is no host. -/
theorem act_hostless {m : Type → Type} [Monad m] (w : World m) (hhost : c.host = none)
    (hdefault : c.policy.defaultNode = none) {a : Action} (ha : a.isAdd = false) :
    act w c a = pure (.error .noHost) := by
  have hnowhere := Context.onCluster_hostless w hhost hdefault
  cases a with
  | add => cases ha
  | _ =>
    simp only [act, Context.status, Context.peers, Context.pins, Context.health, Context.repair,
      Context.rebalance, Context.ensurePins, Context.tagPins, Context.get, Context.remove, hnowhere]

/-- An addition for a profile that the policy does not have ends with the policy at fault, and asks
for nothing but the time. -/
theorem run_add_unknown (c : Context) {path profile : String} (recursive : Bool) {entry : Entry}
    (s : Scene τ) (hentry : s.disk.entry path = .ok entry)
    (hprofile : c.policy.profile profile = none) :
    ∃ page, (act o.world c (.add path profile recursive none)).run s
      = (.ok ⟨AddOutcome.configError.exitCode, page⟩,
        { s with outside := (o.now.run s.outside).2 }) := by
  have hrequired : c.policy.requiredFor profile = .error (.unknownProfile profile) := by
    rw [Policy.requiredFor, hprofile]
  rw [run_act_add, hentry]
  simp only [act, Context.add, Upload.add, World.answering, pure_bind, hrequired]
  exact ⟨_, rfl⟩

/-! ## Runs -/

section Runs

variable {o} {args : List String} {i : Invocation} {path : String} {d : Disk} {p : Policy}
  (hread : Invocation.read o.environment args = .ok i)
  (hpath : PolicyFile.path o.environment o.home i.policyPath = .ok path)
  (hload : PolicyFile.load d path = .ok p) (hhost : i.host = none)

include hread hpath hload hhost

/-- An addition that finds no host says that the policy is at fault. -/
theorem hostless_addition {content profile : String} {recursive : Bool} {entry : Entry}
    (htask : i.task = .act (.add content profile recursive none))
    (hentry : d.entry content = .ok entry) (hprofile : p.targetHost (some profile) i.host = none)
    (t : τ) :
    (o.ran args d t).1.code = 3 ∧ (o.ran args d t).2.disk = d ∧ (o.ran args d t).2.deeds = [] := by
  have hunknown : p.profile profile = none := by
    rw [hhost, Policy.targetHost, Option.bind_some] at hprofile
    cases h : p.profile profile with
    | none => rfl
    | some q =>
      rw [h] at hprofile
      cases hprofile
  obtain ⟨page, hrun⟩ := run_add_unknown o ⟨p, i.host, i.json, .ofEnvironment o.environment⟩
    recursive ⟨d, [], t⟩ hentry hunknown
  rw [Surroundings.ran, run_program o hread hpath htask hload, hrun]
  exact ⟨rfl, rfl, rfl⟩

/-- **Without a host no command does anything.**  Whatever the arguments are, as long as they name
neither a host nor an addition, and whatever the policy file is, as long as it loads and names no
default node, the run ends with the message that there is no host, and leaves all as it found it.
Its exit code is 2, and not 3. -/
theorem hostless_run (hdefault : p.defaultNode = none) {a : Action} (htask : i.task = .act a)
    (ha : a.isAdd = false) (t : τ) :
    o.ran args d t
      = (⟨2, "", "✗ No host specified and no default_node in config " ++
          "(use --host or set default_node)\n"⟩, ⟨d, [], t⟩) := by
  have hmessage : Exit.ofResult (.error .noHost) = ⟨2, "",
      "✗ No host specified and no default_node in config " ++
        "(use --host or set default_node)\n"⟩ := by decide +kernel
  rw [Surroundings.ran, run_program o hread hpath htask hload,
    act_hostless o.world hhost hdefault ha, ← hmessage]
  rfl

end Runs

/-- A removal that is forced. -/
theorem hostless_run_sample :
    let args := ["rm", "few", "--force"]
    let i : Invocation := ⟨some "cfg.yml", none, false, false, .act (.remove "few" true)⟩
    let d := Sample.disk "one"
    Invocation.read Sample.silent.environment args = .ok i ∧
      PolicyFile.path Sample.silent.environment Sample.silent.home i.policyPath = .ok "cfg.yml" ∧
      PolicyFile.load d "cfg.yml" = .ok (Sample.guarded "one") ∧ i.host = none ∧
      (Sample.guarded "one").defaultNode = none ∧ Action.isAdd (.remove "few" true) = false ∧
      Sample.silent.ran args d ()
        = (⟨2, "", "✗ No host specified and no default_node in config " ++
            "(use --host or set default_node)\n"⟩, ⟨d, [], ()⟩) := by
  intro args i d
  have hread : Invocation.read Sample.silent.environment args = .ok i := rfl
  exact ⟨hread, rfl, Sample.load_one, rfl, rfl, rfl,
    hostless_run hread rfl Sample.load_one rfl rfl rfl rfl ()⟩

/-- A request for the status of a pin names no host, and neither does the policy: the run ends with
the exit code 2, which is not that of a policy at fault. -/
theorem hostless_exit_is_two :
    let args := ["status", "few"]
    let i : Invocation := ⟨some "cfg.yml", none, false, false, .act (.status "few")⟩
    let r := Sample.silent.ran args (Sample.disk "one") ()
    Invocation.read Sample.silent.environment args = .ok i ∧
      PolicyFile.load (Sample.disk "one") "cfg.yml" = .ok (Sample.guarded "one") ∧
      (Sample.guarded "one").defaultNode = none ∧
      r.1.code = 2 ∧ r.1.code ≠ AddOutcome.configError.exitCode := by
  intro args i r
  have hread : Invocation.read Sample.silent.environment args = .ok i := rfl
  have hcode : r.1.code = 2 := by
    dsimp only [r]
    rw [Surroundings.ran, run_program _ hread rfl rfl Sample.load_one,
      act_hostless _ rfl rfl rfl]
    rfl
  refine ⟨hread, Sample.load_one, rfl, hcode, ?_⟩
  rw [hcode]
  decide

end PinKeeper.Command
