import PinKeeper.Proofs.Command.Scene
import PinKeeper.Proofs.Files.Path

/-!
# Proofs/Command/Secrecy — what a run shows of the password

A policy is loaded with the credentials in it, and they go two ways from there: into what authorizes
the requests, and into what is shown of the policy.  No command goes by the credentials of its
policy if no answer does (`act_anonymous`), and what is shown of a policy tells the user and not the
password (`Report.policy_withPassword`, `Report.problems_withPassword`).

The password is in the policy file as well, which a run may meet as it meets other files: it may
write over it, but does not go by what it holds (`steady_act`).  So two runs whose policies differ
in the password alone cannot be told apart by what they give and do (`password_unseen`).  There is
one exception: an addition may be of the policy file itself, or of a directory with the file in it,
and then the file is uploaded as it is (`added_policy_shows_password`).
-/

namespace PinKeeper

/-! ## Policies without credentials -/

/-- The same policy without credentials. -/
def Policy.anonymous (p : Policy) : Policy := { p with auth := none }

section Engines

variable {m : Type → Type} [Monad m] (cluster : Cluster m) (p : Policy)

theorem Rebalance.settleAll_anonymous (c : Placement) (scan : Scan m)
    (note : Rebalance.Progress → m Unit) (total : Nat) : ∀ (done : Nat) (pins : List Pin),
    settleAll cluster p.anonymous c scan note total done pins
      = settleAll cluster p c scan note total done pins
  | _, [] => rfl
  | done, pin :: pins => by
    rw [settleAll, settleAll, settleAll_anonymous c scan note total (done + 1) pins]
    rfl

theorem Rebalance.rebalance_anonymous (scan : Scan m) (note : Rebalance.Progress → m Unit) :
    rebalance cluster p.anonymous scan note = rebalance cluster p scan note := by
  rw [rebalance, rebalance]
  simp only [settleAll_anonymous]
  rfl

theorem Retrieve.tryEach_anonymous (cid path : String) : ∀ (last : Failure) (names : List String),
    tryEach cluster p.anonymous cid path last names = tryEach cluster p cid path last names
  | _, [] => rfl
  | _, name :: names => by
    rw [tryEach, tryEach]
    simp only [tryEach_anonymous cid path _ names]
    rfl

theorem Retrieve.get_anonymous (cid : String) (profile : Option String) (path : String) :
    get cluster p.anonymous cid profile path = get cluster p cid profile path := by
  rw [get, get]
  simp only [tryEach_anonymous]
  rfl

end Engines

namespace Command

open Http

section Anonymous

variable {m : Type → Type} [Monad m] {w : World m} (ht : w.transport.IgnoresCredentials)

/-- The same with a policy without credentials. -/
def Context.anonymous (c : Context) : Context := { c with policy := c.policy.anonymous }

include ht

theorem Context.clusterAt_anonymous (c : Context) (host : String) :
    c.anonymous.clusterAt w host = c.clusterAt w host :=
  (c.client host).cluster_anonymous ht

theorem Context.onCluster_anonymous (c : Context)
    (command : Cluster m → m (Except Trouble Ending)) :
    c.anonymous.onCluster w command = c.onCluster w command := by
  have htarget : c.anonymous.policy.targetHost none c.anonymous.host
    = c.policy.targetHost none c.host := rfl
  simp only [onCluster, htarget, clusterAt_anonymous ht]

/-- **No command goes by the credentials** but in what authorizes its requests. -/
theorem act_anonymous (c : Context) (a : Action) : act w c.anonymous a = act w c a := by
  cases a with
  | add path profile recursive manifest =>
    simp only [act, Context.add, Context.clusterAt_anonymous ht]
    rfl
  | rebalance dryRun =>
    simp only [act, Context.rebalance, Context.onCluster_anonymous ht]
    simp only [Context.anonymous, Rebalance.rebalance_anonymous]
    rfl
  | get cid profile path =>
    simp only [act, Context.get, Context.onCluster_anonymous ht]
    simp only [Context.anonymous, Retrieve.get_anonymous]
    rfl
  | remove cid force =>
    simp only [act, Context.remove, Context.onCluster_anonymous ht]
  | status cid =>
    simp only [act, Context.status, Context.onCluster_anonymous ht]
    rfl
  | peers =>
    simp only [act, Context.peers, Context.onCluster_anonymous ht]
    rfl
  | pins =>
    simp only [act, Context.pins, Context.onCluster_anonymous ht]
    rfl
  | health =>
    simp only [act, Context.health, Context.onCluster_anonymous ht]
    rfl
  | repair dryRun =>
    simp only [act, Context.repair, Context.onCluster_anonymous ht]
    rfl
  | ensurePins profile dryRun =>
    simp only [act, Context.ensurePins, Context.onCluster_anonymous ht]
    rfl
  | tagPins profile dryRun =>
    simp only [act, Context.tagPins, Context.onCluster_anonymous ht]
    rfl

end Anonymous

/-! ## What is shown of a policy -/

section Shown

variable {p : Policy} {user password : String} (hauth : p.auth = some ⟨user, password⟩)
  (password' path : String)

include hauth

theorem Report.policy_withPassword :
    Report.policy path { p with auth := some ⟨user, password'⟩ } = Report.policy path p := by
  rw [Report.policy, Report.policy, hauth]

theorem Report.problems_withPassword :
    Report.problems path { p with auth := some ⟨user, password'⟩ } = Report.problems path p := by
  have hconcerns : Policy.concerns { p with auth := some ⟨user, password'⟩ } = p.concerns := by
    rw [Policy.concerns, Policy.concerns, hauth]
    rfl
  rw [Report.problems, Report.problems, hconcerns]
  rfl

end Shown

/-! ## Runs that differ in the password -/

section Secrecy

variable {τ : Type} {place : List String} (o : Surroundings τ)

/-- What a server answers goes only by the bare request. -/
def Surroundings.IgnoresCredentials : Prop := ∀ r, o.exchange r.bare = o.exchange r

theorem Surroundings.ignoresCredentials_world (ho : o.IgnoresCredentials) :
    o.world.transport.IgnoresCredentials := by
  intro r
  change (do Scene.note (.sent r.bare.bare); Scene.outsideOf (o.exchange r.bare)) = _
  rw [ho r]
  rfl

section Loaded

variable {o} {path user password password' : String} {p : Policy} {s s' : Scene τ}
  (h : s.AgreeBut place s') (hload : PolicyFile.load s.disk path = .ok p)
  (hauth : p.auth = some ⟨user, password⟩)
  (hload' : PolicyFile.load s'.disk path = .ok { p with auth := some ⟨user, password'⟩ })

include h hload hauth hload'

/-- **What is shown of the policy file does not tell the password.** -/
theorem alike_viewPolicy (view : PolicyView) :
    Alike place ((viewPolicy o.world path view).run s) ((viewPolicy o.world path view).run s') := by
  cases view with
  | location => exact ⟨rfl, h⟩
  | contents =>
    rw [viewPolicy, run_loadPolicy_bind, run_loadPolicy_bind, hload, hload']
    dsimp only
    rw [Report.policy_withPassword hauth]
    exact ⟨rfl, h⟩
  | problems =>
    rw [viewPolicy, run_loadPolicy_bind, run_loadPolicy_bind, hload, hload']
    dsimp only
    rw [Report.problems_withPassword hauth]
    exact ⟨rfl, h⟩

end Loaded

/-- Two disks that are the same but for one file, and of which the policies that a run loads differ
in the password. -/
structure PasswordsDiffer (args : List String) (place : List String) (d d' : Disk) : Prop where
  disks : d.AgreeBut place d'
  policy : ∀ i path, Invocation.read o.environment args = .ok i →
    PolicyFile.path o.environment o.home i.policyPath = .ok path →
      ∃ p user password password', PolicyFile.load d path = .ok p ∧
        p.auth = some ⟨user, password⟩ ∧
        PolicyFile.load d' path = .ok { p with auth := some ⟨user, password'⟩ }

/-- The arguments ask to add the file at a place. -/
def Adds (args : List String) (d : Disk) (place : List String) : Prop :=
  ∃ i path profile recursive manifest, Invocation.read o.environment args = .ok i ∧
    i.task = .act (.add path profile recursive manifest) ∧ Takes d place path recursive

end Secrecy

end Command

/-! ## A guarded disk

Its policy file has a password, and nobody answers. -/

namespace Sample

open Command

/-- Policy with a password. -/
def guarded (password : String) : Policy where
  auth := some ⟨"u", password⟩
  backupNode := some "b"
  defaultNode := none
  replicationMin := 3
  replicationMax := 5
  profiles := .ofList [("p", ⟨"p", "a"⟩)]
  nodes := .ofList [("a", ⟨"a", "a", some "A", 0⟩), ("b", ⟨"b", "b", some "B", 0⟩)]

/-- Text of the policy file. -/
def guardedText (password : String) : String :=
  "backup_node: b\nprofiles: \x7bp: \x7bprimary: a\x7d\x7d\n" ++
    "nodes: \x7ba: \x7bpeer_id: A\x7d, b: \x7bpeer_id: B\x7d\x7d\n" ++
    "cluster: \x7bbasic_auth_user: u, basic_auth_password: " ++ password ++ "\x7d\n"

/-- Disk with the policy file and another file. -/
def disk (password : String) : Disk :=
  ⟨.directory [("cfg.yml", .file (.ofText (guardedText password)) PolicyFile.ownerOnly),
    ("notes", .file (.zeros 5) Disk.defaultMode)], []⟩

/-- Surroundings in which nobody answers. -/
def silent : Surroundings Unit where
  exchange _ := return none
  stop _ := return none
  log _ := return ()
  decode := Http.bodyText
  now := return .ofClock 0 0
  pause _ := return ()
  environment := [(PolicyFile.locationVariable, "cfg.yml")]
  home := none

/-- Command line that asks to add a file. -/
def adding (path : String) : List String := ["--host", "127.0.0.1", "add", path, "-p", "p"]

/-- What the command line asks for. -/
def addition (path : String) : Invocation :=
  ⟨some "cfg.yml", some "127.0.0.1", false, false, .act (.add path "p" true none)⟩

theorem locate_policyFile (password : String) :
    (disk password).locate "cfg.yml" = .ok (.entry ["cfg.yml"]) :=
  Disk.locate_of_isName (by decide) rfl rfl nofun

theorem load_disk {password : String}
    (h : PolicyFormat.yaml.parse (guardedText password) = .ok (guarded password)) :
    PolicyFile.load (disk password) "cfg.yml" = .ok (guarded password) := by
  have hformat : PolicyFile.format "cfg.yml" = .yaml := if_neg (by decide +kernel)
  rw [PolicyFile.load_of_locate (locate_policyFile password) rfl, hformat, h]

theorem load_one : PolicyFile.load (disk "one") "cfg.yml" = .ok (guarded "one") :=
  load_disk (by decide +kernel)

theorem load_three : PolicyFile.load (disk "three") "cfg.yml" = .ok (guarded "three") :=
  load_disk (by decide +kernel)

theorem passwordsDiffer {path : String}
    (h : Invocation.read silent.environment (adding path) = .ok (addition path)) :
    PasswordsDiffer silent (adding path) ["cfg.yml"] (disk "one") (disk "three") where
  disks :=
    { root := .directory rfl rfl (.file ..) fun n hn => by
        simp only [List.lookup_cons, beq_false_of_ne hn]
      workDir := rfl }
  policy i path' hread hpath := by
    obtain rfl := Except.ok.inj (h.symm.trans hread)
    obtain rfl := Except.ok.inj hpath
    exact ⟨guarded "one", "u", "one", "three", load_one, rfl, load_three⟩

end Sample

/-! ## No password is shown -/

namespace Command

/-- **No run but one that adds the policy file shows the password.**  Whatever the arguments, the
environment, the files and the server are, as long as that does not look at the credentials, two
runs with policies that differ in the password alone end alike: with the same exit code, output and
error output, after the same requests, credentials aside, and the same changes of the files.  The
disks that they leave are the same but for what the policy file holds. -/
theorem password_unseen {τ : Type} (o : Surroundings τ) (ho : o.IgnoresCredentials)
    {args place : List String} {d d' : Disk} (h : PasswordsDiffer o args place d d')
    (hadds : ¬Adds o args d place) (t : τ) :
    Alike place (o.ran args d t) (o.ran args d' t) := by
  have hscenes : Scene.AgreeBut place ⟨d, [], t⟩ ⟨d', [], t⟩ := ⟨h.disks, rfl, rfl⟩
  rw [Surroundings.ran, Surroundings.ran, program]
  cases hread : Invocation.read o.world.environment args with
  | error why => exact ⟨rfl, hscenes⟩
  | ok i =>
    refine Alike.bind ?_ fun _ => compositional_steady.pure _
    rw [run]
    cases hpath : PolicyFile.path o.world.environment o.world.home i.policyPath with
    | error e => exact ⟨rfl, hscenes⟩
    | ok path =>
      obtain ⟨p, user, password, password', hload, hauth, hload'⟩ := h.policy i path hread hpath
      cases htask : i.task with
      | view view => exact alike_viewPolicy hscenes hload hauth hload' view
      | act a =>
        have ht := o.ignoresCredentials_world ho
        dsimp only
        rw [run_loadPolicy_bind, run_loadPolicy_bind, hload, hload']
        dsimp only [doing, Except.mapError]
        -- Both policies are the same without credentials, and the command does not go by these.
        rw [← act_anonymous ht ⟨p, i.host, i.json, .ofEnvironment o.world.environment⟩,
          ← act_anonymous ht ⟨_, i.host, i.json, .ofEnvironment o.world.environment⟩]
        cases a with
        | add path profile recursive manifest =>
          refine alike_act_add o hscenes fun htakes => hadds ?_
          exact ⟨i, path, profile, recursive, manifest, hread, htask, htakes⟩
        | _ => exact steady_act o rfl _ _ hscenes

theorem password_unseen_sample :
    let args := Sample.adding "notes"
    let d := Sample.disk "one"
    let d' := Sample.disk "three"
    Sample.silent.IgnoresCredentials ∧ PasswordsDiffer Sample.silent args ["cfg.yml"] d d' ∧
      ¬Adds Sample.silent args d ["cfg.yml"] ∧
      Alike ["cfg.yml"] (Sample.silent.ran args d ()) (Sample.silent.ran args d' ()) := by
  intro args d d'
  have hserver : Sample.silent.IgnoresCredentials := fun _ => rfl
  have hread : Invocation.read Sample.silent.environment args = .ok (Sample.addition "notes") := rfl
  have hdiffer : PasswordsDiffer Sample.silent args ["cfg.yml"] d d' := Sample.passwordsDiffer hread
  have hadds : ¬Adds Sample.silent args d ["cfg.yml"] := by
    rintro ⟨i, path, profile, recursive, manifest, hi, htask, location, hlocate, hplace, -⟩
    obtain rfl := Except.ok.inj (hread.symm.trans hi)
    obtain ⟨rfl, -, -, -⟩ := Action.add.inj (Task.act.inj htask)
    have hnotes : d.locate "notes" = .ok (.entry ["notes"]) :=
      Disk.locate_of_isName (by decide) rfl rfl nofun
    obtain rfl := Found.entry.inj (Except.ok.inj (hnotes.symm.trans hlocate))
    revert hplace
    decide
  exact ⟨hserver, hdiffer, hadds, password_unseen Sample.silent hserver hdiffer hadds ()⟩

/-- Numbers of bytes in the parts of the requests. -/
def partSizes (deeds : List Deed) : List Nat :=
  deeds.flatMap fun deed =>
    match deed with
    | .sent r => (r.form.getD []).map (·.content.length)
    | _ => []

/-- **A run that adds the policy file shows the password**, as a part of the request. -/
theorem added_policy_shows_password :
    let args := Sample.adding "cfg.yml"
    let r := Sample.silent.ran args (Sample.disk "one") ()
    let r' := Sample.silent.ran args (Sample.disk "three") ()
    Sample.silent.IgnoresCredentials ∧
      PasswordsDiffer Sample.silent args ["cfg.yml"] (Sample.disk "one") (Sample.disk "three") ∧
      partSizes r.2.deeds = [141] ∧ partSizes r'.2.deeds = [143] ∧ ¬Alike ["cfg.yml"] r r' := by
  intro args r r'
  have hread : Invocation.read Sample.silent.environment args = .ok (Sample.addition "cfg.yml") :=
    rfl
  have hentry (password : String) : (Sample.disk password).entry "cfg.yml"
      = .ok (.file (.ofText (Sample.guardedText password)) PolicyFile.ownerOnly) :=
    Disk.entry_of_locate (Sample.locate_policyFile password) rfl
  have hone : partSizes r.2.deeds = [141] := by
    dsimp only [r]
    rw [Surroundings.ran, run_program _ hread rfl rfl Sample.load_one, Prod.map_snd, run_act_add,
      hentry]
    decide +kernel
  have hthree : partSizes r'.2.deeds = [143] := by
    dsimp only [r']
    rw [Surroundings.ran, run_program _ hread rfl rfl Sample.load_three, Prod.map_snd, run_act_add,
      hentry]
    decide +kernel
  refine ⟨fun _ => rfl, Sample.passwordsDiffer hread, hone, hthree, fun halike => ?_⟩
  have hsizes : [141] = [143] :=
    hone.symm.trans ((congrArg partSizes halike.scene.deeds).trans hthree)
  exact absurd hsizes (by decide)

end Command

end PinKeeper
