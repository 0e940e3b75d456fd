import PinKeeper.Proofs.Command.Flag
import PinKeeper.Proofs.Command.Secrecy

/-!
# Proofs/Command/Format — what the format of the output changes

Every command looks at the format in a place of its own: some before they ask for the time, some
after they have written a file, some behind an answer that ends the run.  So the two formats are two
programs, and they are followed side by side (`Coupled`): from one scene they give what is related
and leave what is related.

The clock may run on between the two runs.  For most commands the time shows in the page alone, so
they leave the same scene (`coupled_act`).  An addition tells its time in the manifest as well,
which it writes last (`coupled_addition`): the scenes are then the same but for that time
(`Scene.SameButTime`).  Together with how the flag is read (`read_withoutFlag`) this gives that the
format changes the page alone (`format_changes_page_alone`).
-/

namespace PinKeeper

/-- The same result of an upload at another time. -/
def AddResult.dated (r : AddResult) (time : Time.Instant) : AddResult := { r with addedAt := time }

namespace Command

variable {τ : Type}

/-! ## Scenes that differ in a time -/

namespace Scene

/-- The scene after a file was written, or as much of it as could be. -/
def wrote (s : Scene τ) (stop : Option Disk.Break) (path : String) (content : Content) : Scene τ :=
  { s with
    disk := (s.disk.writeUntil stop path content).2
    deeds := s.deeds ++ [.written path content] }

/-- Scenes that are the same, but for the time in a manifest that was written last. -/
inductive SameButTime : Scene τ → Scene τ → Prop
  | refl (s : Scene τ) : SameButTime s s
  | manifest (s : Scene τ) (stop : Option Disk.Break) (path : String) (r : AddResult)
      (time : Time.Instant) :
      SameButTime (s.wrote stop path (.ofText r.text))
        (s.wrote stop path (.ofText (r.dated time).text))

theorem run_write (o : Surroundings τ) (path : String) (content : Content) (s : Scene τ) :
    (o.world.transport.write path content).run s =
      let stop := (o.stop path).run s.outside
      ((s.disk.writeUntil stop.1 path content).1,
        { s with outside := stop.2 }.wrote stop.1 path content) :=
  rfl

end Scene

/-! ## Programs side by side -/

section Coupled

variable {α β γ δ : Type}

/-- A program goes on from what its first part gave and left. -/
theorem run_parts (x : StateM (Scene τ) α) (f : α → StateM (Scene τ) γ) (s : Scene τ) :
    (x >>= f).run s = (f (x.run s).1).run (x.run s).2 :=
  run_bind_of_run rfl

/-- From one scene two programs give what is related, and leave what is related. -/
def Coupled (R : α → β → Prop) (Q : Scene τ → Scene τ → Prop) (x : StateM (Scene τ) α)
    (y : StateM (Scene τ) β) : Prop :=
  ∀ s, R (x.run s).1 (y.run s).1 ∧ Q (x.run s).2 (y.run s).2

namespace Coupled

variable {R : α → β → Prop} {S : γ → δ → Prop} {Q : Scene τ → Scene τ → Prop}

theorem pure {a : α} {b : β} (h : R a b) : Coupled (τ := τ) R Eq (pure a) (pure b) :=
  fun _ => ⟨h, rfl⟩

theorem bind {x : StateM (Scene τ) α} {y : StateM (Scene τ) β} {f : α → StateM (Scene τ) γ}
    {g : β → StateM (Scene τ) δ} (h : Coupled R Eq x y)
    (hf : ∀ a b, R a b → Coupled S Q (f a) (g b)) : Coupled S Q (x >>= f) (y >>= g) := by
  intro s
  obtain ⟨hresult, hscene⟩ := h s
  have hrest := hf _ _ hresult (x.run s).2
  rw [run_parts x, run_parts y, ← hscene]
  exact hrest

theorem andThen {x : StateM (Scene τ) α} {f : α → StateM (Scene τ) γ} {g : α → StateM (Scene τ) δ}
    (hf : ∀ a, Coupled S Q (f a) (g a)) : Coupled S Q (x >>= f) (x >>= g) :=
  fun s => hf (x.run s).1 (x.run s).2

/-- What is done after two programs may look at their results, but does nothing more. -/
theorem finish {x y : StateM (Scene τ) α} {f : α → StateM (Scene τ) γ} {g : α → StateM (Scene τ) δ}
    (h : Coupled Eq Q x y)
    (hfg : ∀ a, ∃ c d, f a = Pure.pure c ∧ g a = Pure.pure d ∧ S c d) :
    Coupled S Q (x >>= f) (y >>= g) := by
  intro s
  obtain ⟨hresult, hscene⟩ := h s
  obtain ⟨c, d, hf, hg, hends⟩ := hfg (x.run s).1
  rw [run_parts x, run_parts y, ← hresult, hf, hg]
  exact ⟨hends, hscene⟩

theorem same {R : α → α → Prop} (x : StateM (Scene τ) α) (h : ∀ a, R a a) : Coupled R Eq x x :=
  fun _ => ⟨h _, rfl⟩

theorem mono {x : StateM (Scene τ) α} {y : StateM (Scene τ) β} (h : Coupled R Eq x y)
    (hQ : ∀ s, Q s s) : Coupled R Q x y := by
  intro s
  obtain ⟨hresult, hscene⟩ := h s
  rw [← hscene]
  exact ⟨hresult, hQ _⟩

end Coupled

end Coupled

/-! ## The time of an upload -/

section Upload

variable {time : Time.Instant} {p : Policy} {u : Upload.Options}

/-- The second result is the first one at another time. -/
def Dated (time : Time.Instant) (r r' : AddResult) : Prop := r' = r.dated time

theorem coupled_verify (cluster : Cluster (StateM (Scene τ))) (r : AddResult) :
    Coupled (Dated time) Eq (Upload.verify cluster p r)
      (Upload.verify cluster p (r.dated time)) := by
  refine .andThen fun answer => ?_
  cases answer with
  | ok pin => exact .pure rfl
  | error e => exact .pure rfl

variable {connect : String → StateM (Scene τ) (Except ClusterError (Cluster (StateM (Scene τ))))}

theorem coupled_uploadSend (r : AddResult) (host : String) (files : List LocalFile) :
    Coupled (Dated time) Eq (Upload.send connect p u r host files)
      (Upload.send connect p u (r.dated time) host files) := by
  refine .andThen fun answer => ?_
  cases answer with
  | error e => exact .pure rfl
  | ok cluster =>
    refine .andThen fun answer => ?_
    cases answer with
    | error e => exact .pure rfl
    | ok added =>
      dsimp only
      split
      · exact .pure rfl
      · next root _ =>
        exact coupled_verify cluster { r with rootCid := root.cid, entries := _ }

/-- **The time of an upload shows in its result, and nowhere else.** -/
theorem coupled_upload {lookup : String → StateM (Scene τ) (Except FileError Entry)}
    (time' : Time.Instant) :
    Coupled (Dated time) Eq (Upload.add lookup connect p u time')
      (Upload.add lookup connect p u time) := by
  refine .andThen fun answer => ?_
  cases answer with
  | error e => exact .pure rfl
  | ok entry =>
    dsimp only
    split
    · exact .pure rfl
    · next allocations _ =>
      split
      · exact .pure rfl
      · split
        · exact .pure rfl
        · split
          · exact .pure rfl
          · exact coupled_uploadSend { Upload.start p u time' with allocations := allocations } _ _

end Upload

/-- Two commands end with one exit code, or in one trouble. -/
def SameEnd (r r' : Except Trouble Ending) : Prop := r.map (·.code) = r'.map (·.code)

theorem sameEnd_map {α : Type} {r : Except Trouble α} {f g : α → Ending}
    (h : ∀ a, (f a).code = (g a).code) : SameEnd (r.map f) (r.map g) := by
  cases r with
  | error e => rfl
  | ok a => exact congrArg Except.ok (h a)

/-! ## Surroundings with another clock -/

/-- The same surroundings with another clock. -/
def Surroundings.withClock (o : Surroundings τ) (clock : StateM τ Time.Instant) : Surroundings τ :=
  { o with now := clock }

section Commands

variable (o : Surroundings τ) {clock : StateM τ Time.Instant}
  (hclock : ∀ t, (clock.run t).2 = (o.now.run t).2) {c : Context} {json : Bool}

include hclock

theorem coupled_now : Coupled (fun _ _ => True) Eq o.world.now (o.withClock clock).world.now := by
  intro s
  refine ⟨trivial, ?_⟩
  change { s with outside := (o.now.run s.outside).2 }
    = { s with outside := (clock.run s.outside).2 }
  rw [hclock]

omit hclock in
theorem coupled_onCluster
    {f g : Cluster (StateM (Scene τ)) → StateM (Scene τ) (Except Trouble Ending)}
    (h : ∀ cluster, Coupled SameEnd Eq (f cluster) (g cluster)) :
    Coupled SameEnd Eq (c.onCluster o.world f)
      ({ c with json := json }.onCluster (o.withClock clock).world g) := by
  rw [Context.onCluster, Context.onCluster]
  dsimp only
  split
  · exact h _
  · exact .pure rfl

omit hclock in
/-- A command that shows what the cluster answers. -/
theorem coupled_shown {ρ α : Type} (x : Cluster (StateM (Scene τ)) → StateM (Scene τ) ρ)
    {r : ρ → Except Trouble α} {f g : α → Ending} (h : ∀ a, (f a).code = (g a).code) :
    Coupled SameEnd Eq
      (c.onCluster o.world fun cluster => do return (r (← x cluster)).map f)
      ({ c with json := json }.onCluster (o.withClock clock).world fun cluster => do
        return (r (← x cluster)).map g) :=
  coupled_onCluster o fun _ => .andThen fun _ => .pure (sameEnd_map h)

/-- A command that shows what the cluster answers, with the time. -/
theorem coupled_timed {ρ α : Type} (x : Cluster (StateM (Scene τ)) → StateM (Scene τ) ρ)
    {r : ρ → Except Trouble α} {f g : Time.Instant → α → Ending} (code : α → Nat)
    (hf : ∀ time a, (f time a).code = code a) (hg : ∀ time a, (g time a).code = code a) :
    Coupled SameEnd Eq
      (c.onCluster o.world fun cluster => do
        let answer ← x cluster
        let time ← o.world.now
        return (r answer).map (f time))
      ({ c with json := json }.onCluster (o.withClock clock).world fun cluster => do
        let answer ← x cluster
        let time ← (o.withClock clock).world.now
        return (r answer).map (g time)) :=
  coupled_onCluster o fun _ => .andThen fun _ =>
    (coupled_now o hclock).bind fun time time' _ =>
      .pure (sameEnd_map fun a => (hf time a).trans (hg time' a).symm)

/-- **A command ends alike in both formats and leaves the same**, unless it is an addition. -/
theorem coupled_act {a : Action} (ha : a.isAdd = false) :
    Coupled SameEnd Eq (act o.world c a)
      (act (o.withClock clock).world { c with json := json } a) := by
  cases a with
  | add => cases ha
  | status cid => exact coupled_shown o (fun cluster => cluster.pinStatus cid) fun _ => rfl
  | peers => exact coupled_shown o (fun cluster => cluster.peers) fun _ => rfl
  | pins => exact coupled_shown o (fun cluster => cluster.pins) fun _ => rfl
  | health =>
    exact coupled_timed o hclock (fun cluster => Health.check cluster)
      Health.Report.severity (fun _ _ => rfl) fun _ _ => rfl
  | repair dryRun =>
    exact coupled_timed o hclock (fun cluster =>
      Repair.repair cluster c.policy (Context.scan o.world dryRun))
      Repair.Report.severity (fun _ _ => rfl) fun _ _ => rfl
  | rebalance dryRun =>
    exact coupled_timed o hclock (fun cluster =>
      Rebalance.rebalance cluster c.policy (Context.scan o.world dryRun) fun _ => pure ())
      Rebalance.Report.severity (fun _ _ => rfl) fun _ _ => rfl
  | ensurePins profile dryRun =>
    exact coupled_timed o hclock (fun cluster =>
      Migrate.ensurePins cluster c.policy profile (Context.scan o.world dryRun))
      Migrate.EnsureReport.severity (fun _ _ => rfl) fun _ _ => rfl
  | tagPins profile dryRun =>
    exact coupled_timed o hclock (fun cluster =>
      Migrate.tagPins cluster c.policy profile (Context.scan o.world dryRun))
      Migrate.TagReport.severity (fun _ _ => rfl) fun _ _ => rfl
  | get cid profile path =>
    rw [act, act, Context.get, Context.get]
    refine coupled_onCluster o fun cluster => .andThen fun made => ?_
    cases made with
    | error e => exact .pure rfl
    | ok _ =>
      refine .andThen fun answer => ?_
      exact .pure (sameEnd_map fun _ => rfl)
  | remove cid force =>
    -- The format does not come into it.
    exact coupled_onCluster o fun _ => .same _ fun _ => rfl

omit hclock in
theorem coupled_writeManifest (manifest : Option String) (r : AddResult) (time : Time.Instant) :
    Coupled Eq Scene.SameButTime (Context.writeManifest o.world manifest r)
      (Context.writeManifest (o.withClock clock).world manifest (r.dated time)) := by
  cases manifest with
  | none => exact .mono (.pure rfl) .refl
  | some path =>
    have hwrite : Coupled Eq Scene.SameButTime (o.world.transport.write path (.ofText r.text))
        ((o.withClock clock).world.transport.write path (.ofText (r.dated time).text)) := by
      intro s
      rw [Scene.run_write, Scene.run_write]
      exact ⟨s.disk.writeUntil_fst _ path _ _, .manifest _ _ path r time⟩
    refine hwrite.finish fun answer => ?_
    cases answer with
    | ok _ => exact ⟨_, _, rfl, rfl, rfl⟩
    | error e => exact ⟨_, _, rfl, rfl, rfl⟩

/-- **An addition shows its time in the page and in the manifest, and nowhere else.** -/
theorem coupled_addition (path profile : String) (recursive : Bool) (manifest : Option String) :
    Coupled SameEnd Scene.SameButTime (act o.world c (.add path profile recursive manifest))
      (act (o.withClock clock).world { c with json := json }
        (.add path profile recursive manifest)) := by
  rw [act, act, Context.add, Context.add]
  refine (coupled_now o hclock).bind fun time time' _ => ?_
  refine (coupled_upload time).bind fun r r' hr => ?_
  obtain rfl : r' = r.dated time' := hr
  refine (coupled_writeManifest o manifest r time').finish fun written => ?_
  cases written with
  | error e => exact ⟨_, _, rfl, rfl, rfl⟩
  | ok _ =>
    have hcodes : (c.ending r.outcome.exitCode r.toJson (Report.added r)).code
        = r.outcome.exitCode := rfl
    exact ⟨_, _, rfl, rfl, congrArg Except.ok hcodes⟩

end Commands

/-! ## Runs -/

section Runs

variable (o : Surroundings τ) {clock : StateM τ Time.Instant}
  (hclock : ∀ t, (clock.run t).2 = (o.now.run t).2)

include hclock in
/-- **A run ends alike in both formats**, and leaves the same but for the time in a manifest. -/
theorem coupled_run (i : Invocation) (json : Bool) :
    Coupled SameEnd Scene.SameButTime (run o.world i)
      (run (o.withClock clock).world { i with json := json }) := by
  have hpath : PolicyFile.path (o.withClock clock).world.environment (o.withClock clock).world.home
      i.policyPath = PolicyFile.path o.world.environment o.world.home i.policyPath := rfl
  rw [run, run, hpath]
  cases PolicyFile.path o.world.environment o.world.home i.policyPath with
  | error e => exact .mono (.pure rfl) .refl
  | ok path =>
    dsimp only
    cases i.task with
    -- The policy is shown as a page in both formats.
    | view view => exact fun s => ⟨rfl, .refl _⟩
    | act a =>
      refine .andThen fun loaded => ?_
      cases loaded with
      | error e => exact .mono (.pure rfl) .refl
      | ok p =>
        cases a with
        | add path profile recursive manifest =>
          exact coupled_addition o hclock path profile recursive manifest
        | _ => exact (coupled_act o hclock rfl).mono .refl

theorem SameEnd.exit {r r' : Except Trouble Ending} (h : SameEnd r r') :
    (Exit.ofResult r).code = (Exit.ofResult r').code ∧
      (Exit.ofResult r).errors = (Exit.ofResult r').errors := by
  cases r with
  | error e =>
    cases r' with
    | error e' =>
      obtain rfl : e = e' := Except.error.inj h
      exact ⟨rfl, rfl⟩
    | ok _ => cases h
  | ok e =>
    cases r' with
    | error _ => cases h
    | ok e' => exact ⟨Except.ok.inj h, rfl⟩

/-- Requests among what was done, in their order. -/
def requestsOf (deeds : List Deed) : List Http.Request :=
  deeds.filterMap fun deed =>
    match deed with
    | .sent r => some r
    | _ => none

/-- Two runs that differ in nothing but the page and the times that they tell. -/
structure SameButPage (r r' : Exit × Scene τ) : Prop where
  code : r.1.code = r'.1.code
  errors : r.1.errors = r'.1.errors
  requests : requestsOf r.2.deeds = requestsOf r'.2.deeds
  /-- What is outside has met the same, the credentials of the requests included. -/
  outside : r.2.outside = r'.2.outside
  files : r.2.SameButTime r'.2

theorem Scene.SameButTime.requests {s s' : Scene τ} (h : s.SameButTime s') :
    requestsOf s.deeds = requestsOf s'.deeds := by
  cases h with
  | refl s => rfl
  | manifest s stop path r time =>
    simp only [Scene.wrote, requestsOf, List.filterMap_append, List.filterMap_cons,
      List.filterMap_nil]

theorem Scene.SameButTime.outside {s s' : Scene τ} (h : s.SameButTime s') :
    s.outside = s'.outside := by
  cases h with
  | refl s => rfl
  | manifest s stop path r time => simp only [Scene.wrote]

/-! ## Severities -/

/-- What a pass over all pins, or a look at the health, finds in a scene has a severity. -/
inductive Finds (o : Surroundings τ) (c : Context) (cluster : Cluster (StateM (Scene τ)))
    (s : Scene τ) : Action → Nat → Prop
  | health {r : Health.Report} (h : ((Health.check cluster).run s).1 = .ok r) :
      Finds o c cluster s .health r.severity
  | repair {dryRun : Bool} {r : Repair.Report}
      (h : ((Repair.repair cluster c.policy (Context.scan o.world dryRun)).run s).1 = .ok r) :
      Finds o c cluster s (.repair dryRun) r.severity
  | rebalance {dryRun : Bool} {r : Rebalance.Report}
      (h : ((Rebalance.rebalance cluster c.policy (Context.scan o.world dryRun)
        fun _ => pure ()).run s).1 = .ok r) :
      Finds o c cluster s (.rebalance dryRun) r.severity
  | ensurePins {profile : String} {dryRun : Bool} {r : Migrate.EnsureReport}
      (h : ((Migrate.ensurePins cluster c.policy profile
        (Context.scan o.world dryRun)).run s).1 = .ok r) :
      Finds o c cluster s (.ensurePins profile dryRun) r.severity
  | tagPins {profile : String} {dryRun : Bool} {r : Migrate.TagReport}
      (h : ((Migrate.tagPins cluster c.policy profile
        (Context.scan o.world dryRun)).run s).1 = .ok r) :
      Finds o c cluster s (.tagPins profile dryRun) r.severity

/-- A command that shows a result with the time ends with the code that goes with the result. -/
theorem code_timed {ρ α : Type} {c : Context} {host : String} {s : Scene τ} {n : Nat}
    (x : Cluster (StateM (Scene τ)) → StateM (Scene τ) ρ) {r : ρ → Except Trouble α}
    {f : Time.Instant → α → Ending} {answer : ρ} {a : α}
    (hhost : c.policy.targetHost none c.host = some host)
    (h : ((x (c.clusterAt o.world host)).run s).1 = answer) (hanswer : r answer = .ok a)
    (hcode : ∀ time, (f time a).code = n) :
    ((c.onCluster o.world fun cluster => do
        let answer ← x cluster
        let time ← o.world.now
        return (r answer).map (f time)).run s).1.map (·.code) = .ok n := by
  rw [Context.onCluster, hhost]
  dsimp only
  rw [run_parts, h, hanswer, run_parts]
  exact congrArg Except.ok (hcode _)

/-- **A command that finds something ends with its severity.** -/
theorem code_of_finds {c : Context} {host : String} {s : Scene τ} {a : Action} {n : Nat}
    (hhost : c.policy.targetHost none c.host = some host)
    (h : Finds o c (c.clusterAt o.world host) s a n) :
    ((act o.world c a).run s).1.map (·.code) = .ok n := by
  cases h with
  | health h => exact code_timed o (fun cluster => Health.check cluster) hhost h rfl fun _ => rfl
  | @repair dryRun _ h =>
    exact code_timed o (fun cluster =>
      Repair.repair cluster c.policy (Context.scan o.world dryRun)) hhost h rfl fun _ => rfl
  | @rebalance dryRun _ h =>
    exact code_timed o (fun cluster =>
      Rebalance.rebalance cluster c.policy (Context.scan o.world dryRun) fun _ => pure ())
      hhost h rfl fun _ => rfl
  | @ensurePins profile dryRun _ h =>
    exact code_timed o (fun cluster =>
      Migrate.ensurePins cluster c.policy profile (Context.scan o.world dryRun))
      hhost h rfl fun _ => rfl
  | @tagPins profile dryRun _ h =>
    exact code_timed o (fun cluster =>
      Migrate.tagPins cluster c.policy profile (Context.scan o.world dryRun))
      hhost h rfl fun _ => rfl

/-- A run obtains a result with a severity: its policy is loaded, there is a host, and what the
command finds there has the severity. -/
def Surroundings.Obtains (i : Invocation) (d : Disk) (t : τ) (n : Nat) : Prop :=
  ∃ path p host a, PolicyFile.path o.environment o.home i.policyPath = .ok path ∧
    PolicyFile.load d path = .ok p ∧ p.targetHost none i.host = some host ∧ i.task = .act a ∧
    let c : Context := ⟨p, i.host, i.json, .ofEnvironment o.environment⟩
    Finds o c (c.clusterAt o.world host) ⟨d, [], t⟩ a n

/-- **The format of the output changes the page alone.**  Whatever the arguments are, as long as
they can be read, and whatever the environment, the files and the outside are, the same arguments
without the flag ask for the same in the other format.  The two runs send the same requests in the
same order, with the same credentials, change the files alike but for the time that a manifest
tells, and end with the same exit code and error output, also if the clock shows another time.
Where a pass over all pins or a look at the health obtains a result, the exit code is its
severity. -/
theorem format_changes_page_alone (hclock : ∀ t, (clock.run t).2 = (o.now.run t).2)
    {args : List String} {i : Invocation} (hread : Invocation.read o.environment args = .ok i)
    (d : Disk) (t : τ) :
    Invocation.read o.environment (withoutFlag args) = .ok { i with json := false } ∧
      SameButPage (o.ran args d t) ((o.withClock clock).ran (withoutFlag args) d t) ∧
      ∀ n, o.Obtains i d t n → (o.ran args d t).1.code = n := by
  have hplain := read_withoutFlag hread
  refine ⟨hplain, ?_, ?_⟩
  · have hread₁ : Invocation.read o.world.environment args = .ok i := hread
    have hread₂ : Invocation.read (o.withClock clock).world.environment (withoutFlag args)
      = .ok { i with json := false } := hplain
    obtain ⟨hend, hscene⟩ := coupled_run o hclock i false ⟨d, [], t⟩
    rw [Surroundings.ran, Surroundings.ran, program, program, hread₁, hread₂]
    exact ⟨hend.exit.1, hend.exit.2, hscene.requests, hscene.outside, hscene⟩
  · rintro n ⟨path, p, host, a, hpath, hload, hhost, htask, hfinds⟩
    have hend : SameEnd _ (.ok ⟨n, ""⟩) := code_of_finds o hhost hfinds
    rw [Surroundings.ran, run_program o hread hpath htask hload, Prod.map_fst]
    exact hend.exit.1

end Runs

end Command

/-! ## A node that answers

It answers every request with one pin that failed on a peer. -/

namespace Sample

/-- Surroundings in which every request is answered. -/
def answering : Command.Surroundings Unit :=
  { silent with exchange := fun _ => return some (.plain 200 answer) }

/-- Command line that asks for a repair, in a format or without one. -/
def repairingIn (format : List String) : List String :=
  format ++ ["--host", "127.0.0.1", "repair"]

end Sample

namespace Command

theorem format_changes_page_alone_sample :
    let o := Sample.answering
    let clock : StateM Unit Time.Instant := return .ofClock 1 0
    let args := Sample.repairingIn ["--json"]
    let i : Invocation := ⟨some "cfg.yml", some "127.0.0.1", true, false, .act (.repair false)⟩
    let d := Sample.disk "one"
    (∀ t, (clock.run t).2 = (o.now.run t).2) ∧ Invocation.read o.environment args = .ok i ∧
      o.Obtains i d () 1 ∧
      Invocation.read o.environment (Sample.repairingIn []) = .ok { i with json := false } ∧
      SameButPage (o.ran args d ()) ((o.withClock clock).ran (Sample.repairingIn []) d ()) ∧
      (o.ran args d ()).1.code = 1 := by
  intro o clock args i d
  have hclock : ∀ t, (clock.run t).2 = (o.now.run t).2 := fun _ => rfl
  have hread : Invocation.read o.environment args = .ok i := rfl
  have hargs : withoutFlag args = Sample.repairingIn [] := rfl
  have hobtains : o.Obtains i d () 1 := by
    refine ⟨"cfg.yml", Sample.guarded "one", "127.0.0.1", .repair false, rfl, Sample.load_one, rfl,
      rfl, ?_⟩
    intro c
    let found := ((Repair.repair (c.clusterAt o.world "127.0.0.1") c.policy
      (Context.scan o.world false)).run ⟨d, [], ()⟩).1
    have hseverity : found.toOption.map (·.severity) = some 1 := by decide +kernel
    cases hfound : found with
    | error e =>
      rw [hfound] at hseverity
      cases hseverity
    | ok r =>
      rw [hfound] at hseverity
      rw [← Option.some.inj hseverity]
      exact .repair hfound
  have ⟨hplain, hsame, hcode⟩ := format_changes_page_alone o hclock hread d ()
  rw [hargs] at hplain hsame
  exact ⟨hclock, hread, hobtains, hplain, hsame, hcode 1 hobtains⟩

end Command

end PinKeeper
