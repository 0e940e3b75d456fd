import PinKeeper.Cluster.Memory
import PinKeeper.Proofs.Answers
import PinKeeper.Proofs.Maintenance.Rebalance
import PinKeeper.Proofs.Retrieve.Sources

/-!
# Proofs/Retrieve/Attempts — one source after the other, up to the first that serves

A fetch is followed with a record of its downloads beside the state (`Cluster.attempting`): which
host was asked for what, and what came of it.  Every source that fails is followed by the next one,
with its failure as the last (`run_tryEach`), so the downloads go to the sources in their order up
to and including the first that serves.  With what the sources are (`Proofs/Retrieve/Sources`) this
is all that a fetch does behind the status of the pin (`get_tries_best_first`).
-/

namespace PinKeeper

/-- Download that was tried. -/
structure Attempt where
  host : String
  cid : String
  path : String
  answer : Except ClusterError Download

/-- The cluster, in programs that keep a record of the downloads. -/
def Cluster.attempting {m : Type → Type} [Monad m] (cluster : Cluster m) :
    Cluster (StateT (List Attempt) m) where
  host := cluster.host
  peers := liftM cluster.peers
  pins := liftM cluster.pins
  pinStatus cid := liftM (cluster.pinStatus cid)
  add r := liftM (cluster.add r)
  pin r := liftM (cluster.pin r)
  unpin cid := liftM (cluster.unpin cid)
  recover cid := liftM (cluster.recover cid)
  freeSpace := liftM cluster.freeSpace
  dagSize cid := liftM (cluster.dagSize cid)
  download host cid path := do
    let answer ← liftM (cluster.download host cid path)
    modify (· ++ [⟨host, cid, path, answer⟩])
    return answer

namespace Retrieve

section Runs

variable {σ : Type} {cluster : Cluster (StateM σ)} {p : Policy} {cid path : String}

/-- Attempt at a source. -/
def attempt (p : Policy) (cid path name : String) (answer : Except ClusterError Download) :
    Attempt := ⟨p.hostFor name, cid, path, answer⟩

/-- Attempts at sources, in their order, that all failed. -/
def Failed (p : Policy) (cid path : String) : List String → List Attempt → Prop :=
  List.Forall₂ fun name a => ∃ e, a = attempt p cid path name (.error e)

variable (p cid path) in
theorem Failed.nil : Failed p cid path [] [] := List.Forall₂.nil

theorem Failed.cons {names : List String} {attempts : List Attempt}
    (h : Failed p cid path names attempts) (name : String) (e : ClusterError) :
    Failed p cid path (name :: names) (attempt p cid path name (.error e) :: attempts) :=
  List.Forall₂.cons ⟨e, rfl⟩ h

/-- How trying the sources in turn ends; `last` is the failure before the first of them. -/
inductive Tried (p : Policy) (cid path : String) (last : Failure) :
    List String → List Attempt → Except Failure Download → Prop
  | nobody : Tried p cid path last [] [] (.error last)
  | success {failed rest : List String} {earlier : List Attempt} {name : String} {d : Download}
      (h : Failed p cid path failed earlier) :
      Tried p cid path last (failed ++ name :: rest)
        (earlier ++ [attempt p cid path name (.ok d)]) (.ok d)
  | failure {failed : List String} {earlier : List Attempt} {name : String} {e : ClusterError}
      (h : Failed p cid path failed earlier) :
      Tried p cid path last (failed ++ [name])
        (earlier ++ [attempt p cid path name (.error e)]) (.error (.transport e))

/-- A source that fails is followed by the others. -/
theorem Tried.cons {last : Failure} {name : String} {names : List String} {e : ClusterError}
    {attempts : List Attempt} {result : Except Failure Download}
    (h : Tried p cid path (.transport e) names attempts result) :
    Tried p cid path last (name :: names) (attempt p cid path name (.error e) :: attempts)
      result := by
  cases h with
  | nobody => exact .failure (Failed.nil p cid path)
  | success h => exact .success (h.cons name e)
  | failure h => exact .failure (h.cons name e)

theorem run_download {name : String} {s t : σ} {answer : Except ClusterError Download}
    (h : (cluster.download (p.hostFor name) cid path).run s = (answer, t))
    (earlier : List Attempt) :
    ((cluster.attempting.download (p.hostFor name) cid path).run earlier).run s
      = ((answer, earlier ++ [attempt p cid path name answer]), t) :=
  run_bind_of_run_run (run_run_liftM h earlier)

variable (cluster p cid path) in
/-- **The sources are tried in turn, up to the first that serves.** -/
theorem run_tryEach : ∀ (names : List String) (last : Failure) (earlier : List Attempt) (s : σ),
    ∃ attempts result t,
      ((tryEach cluster.attempting p cid path last names).run earlier).run s
        = ((result, earlier ++ attempts), t) ∧ Tried p cid path last names attempts result
  | [], last, earlier, s => ⟨[], .error last, s, by rw [List.append_nil]; rfl, .nobody⟩
  | name :: names, last, earlier, s => by
    cases hanswer : (cluster.download (p.hostFor name) cid path).run s with
    | mk answer t =>
      rw [tryEach, run_bind_of_run_run (run_download hanswer earlier)]
      cases answer with
      | ok d =>
        exact ⟨[attempt p cid path name (.ok d)], .ok d, t, rfl,
          .success (Failed.nil p cid path)⟩
      | error e =>
        obtain ⟨attempts, result, t', hrun, h⟩ := run_tryEach names (.transport e)
          (earlier ++ [attempt p cid path name (.error e)]) t
        refine ⟨attempt p cid path name (.error e) :: attempts, result, t', ?_, h.cons⟩
        rw [hrun, List.append_assoc, List.singleton_append]

/-- **A fetch tries every source once, the best first, and stops at the first that serves.**  It
answers with what that download wrote; where all fail, with the last failure; and where no node
holds the pin it says so and downloads nothing. -/
theorem get_tries_best_first (h : WellKept p) {profile : Option String}
    (hprofile : ∀ name ∈ profile, (p.profile name).isSome = true) {pin : Pin} {s t : σ}
    (hpin : (cluster.pinStatus cid).run s = (.ok pin, t)) :
    ∃ names attempts result,
      sources p pin profile = .ok names ∧ BestFirst p pin (primaryOf p profile) names ∧
      (((get cluster.attempting p cid profile path).run []).run s).1 = (result, attempts) ∧
      Tried p cid path (.validation ("No peers have pinned " ++ cid)) names attempts result := by
  obtain ⟨names, hnames, hbest⟩ := h.exists_sources pin hprofile
  obtain ⟨attempts, result, t', hrun, htried⟩ :=
    run_tryEach cluster p cid path names (nobodyHolds cid) [] t
  refine ⟨names, attempts, result, hnames, hbest, ?_, htried⟩
  have hstatus : ((cluster.attempting.pinStatus cid).run []).run s = ((.ok pin, []), t) :=
    run_run_liftM hpin []
  rw [get, run_bind_of_run_run hstatus]
  dsimp only
  rw [hnames]
  exact congrArg Prod.fst hrun

end Runs

/-! ## A fetch from the second source -/

namespace Sample

open PinKeeper.Sample

/-- Pin that three nodes hold. -/
def held : Pin :=
  { pin "held" (some "acme") ["A", "B", "C"] with
    peerMap := .ofList [("A", ⟨"alpha", .pinned, none⟩), ("B", ⟨"beta", .pinned, none⟩),
      ("C", ⟨"gamma", .pinned, none⟩)] }

/-- A cluster in which the primary node serves nothing. -/
def closed : Memory :=
  { memory with
    pins := [held]
    faults := { Faults.none with
      download := fun host => if host = "alpha" then some (.api 502 "bad gateway") else none } }

theorem wellKept_policy : WellKept policy := ⟨by decide, by decide⟩

end Sample

open PinKeeper.Sample Retrieve.Sample in
theorem get_tries_best_first_sample :
    WellKept policy ∧
    (∀ name ∈ some "acme", (policy.profile name).isSome = true) ∧
    ((Memory.cluster "alpha").pinStatus "held").run closed
      = (.ok held, { closed with calls := [.pinStatus "held"] }) ∧
    ∃ names attempts result,
      sources policy held (some "acme") = .ok names ∧
      BestFirst policy held (primaryOf policy (some "acme")) names ∧
      (((get (Memory.cluster "alpha").attempting policy "held" (some "acme") "out").run []).run
        closed).1 = (result, attempts) ∧
      Tried policy "held" "out" (.validation ("No peers have pinned " ++ "held")) names attempts
        result := by
  have hprofile : ∀ name ∈ some "acme", (policy.profile name).isSome = true := by
    rintro name hname
    obtain rfl := Option.mem_some_iff.1 hname
    decide
  have hpin : ((Memory.cluster "alpha").pinStatus "held").run closed
      = (.ok held, { closed with calls := [.pinStatus "held"] }) := rfl
  exact ⟨wellKept_policy, hprofile, hpin,
    get_tries_best_first wellKept_policy hprofile hpin⟩

end Retrieve

end PinKeeper
