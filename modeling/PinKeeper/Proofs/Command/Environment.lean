import PinKeeper.Command.Run

/-!
# Proofs/Command/Environment — what a run takes from the environment

A run looks up the place of the policy file, the two ports, the time for a request and the pause
after a write.  Whatever else the environment says is no matter to it (`program_congr`).
-/

namespace PinKeeper.Command

/-- Variables that a run looks up. -/
def runVariables : List String :=
  [PolicyFile.locationVariable, "CCS_API_PORT", "CCS_GATEWAY_PORT", "CCS_TIMEOUT_SECS",
    "CCS_REQUEST_DELAY_MS"]

/-- Two environments say the same of the variables that a run looks up. -/
def Agree (e e' : Environment) : Prop := ∀ name ∈ runVariables, e.lookup name = e'.lookup name

/-! ## The command line -/

section Arguments

variable {e e' : Environment} (h : Agree e e')

include h

theorem lookup_location : e.lookup PolicyFile.locationVariable
    = e'.lookup PolicyFile.locationVariable :=
  h _ List.mem_cons_self

theorem complete_congr (r : Reading) : complete e r = complete e' r := by
  simp only [complete, lookup_location h]

theorem readScopes_congr (scope : Scope) (onlyOperands : Bool) (r : Reading) (ws : List String) :
    readScopes e scope onlyOperands r ws = readScopes e' scope onlyOperands r ws := by
  -- The environment is asked only where a scope ends, so any reading goes on the same way.
  induction ws generalizing scope onlyOperands r with
  | nil => rw [readScopes, readScopes, complete_congr h]
  | cons w ws ih =>
    cases onlyOperands with
    | true => simp only [readScopes, ih]
    | false => simp only [readScopes, ih, complete_congr h]

theorem read_congr (args : List String) : Invocation.read e args = Invocation.read e' args := by
  simp only [Invocation.read, readScopes_congr h, lookup_location h]

end Arguments

/-! ## The run -/

/-- The world with another environment. -/
def World.withEnvironment {m : Type → Type} (w : World m) (e : Environment) : World m :=
  { w with environment := e }

section Run

variable {e e' : Environment} (h : Agree e e') {m : Type → Type} (w : World m)

include h

theorem scan_congr (dryRun : Bool) : Context.scan (w.withEnvironment e) dryRun
    = Context.scan (w.withEnvironment e') dryRun := by
  have hdelay : (ScanSettings.ofEnvironment e).delay = (ScanSettings.ofEnvironment e').delay := by
    rw [ScanSettings.ofEnvironment, ScanSettings.ofEnvironment, Environment.number,
      Environment.number, h "CCS_REQUEST_DELAY_MS" (by decide)]
  exact congrArg (fun delay => Scan.mk dryRun (w.pause delay)) hdelay

theorem transportSettings_congr :
    TransportSettings.ofEnvironment e = TransportSettings.ofEnvironment e' := by
  simp only [TransportSettings.ofEnvironment, Environment.number, h "CCS_API_PORT" (by decide),
    h "CCS_GATEWAY_PORT" (by decide), h "CCS_TIMEOUT_SECS" (by decide)]

theorem policyPath_congr (home path : Option String) :
    PolicyFile.path e home path = PolicyFile.path e' home path := by
  simp only [PolicyFile.path, lookup_location h]

variable [Monad m]

/-- Of all that is done on the cluster only a pass over all pins looks at the environment itself. -/
theorem act_congr (c : Context) (a : Action) :
    act (w.withEnvironment e) c a = act (w.withEnvironment e') c a := by
  cases a with
  | repair dryRun =>
    simp only [act, Context.repair, scan_congr h]
    rfl
  | rebalance dryRun =>
    simp only [act, Context.rebalance, scan_congr h]
    rfl
  | ensurePins profile dryRun =>
    simp only [act, Context.ensurePins, scan_congr h]
    rfl
  | tagPins profile dryRun =>
    simp only [act, Context.tagPins, scan_congr h]
    rfl
  | _ => rfl

theorem run_congr (i : Invocation) :
    run (w.withEnvironment e) i = run (w.withEnvironment e') i := by
  have hpath : PolicyFile.path e w.home i.policyPath = PolicyFile.path e' w.home i.policyPath :=
    policyPath_congr h w.home i.policyPath
  simp only [run, act_congr h]
  simp only [World.withEnvironment, hpath, transportSettings_congr h]
  rfl

/-- **A run depends on nothing in the environment but the variables that it looks up.** -/
theorem program_congr (args : List String) :
    program (w.withEnvironment e) args = program (w.withEnvironment e') args := by
  simp only [program, run_congr h]
  simp only [World.withEnvironment, read_congr h]

end Run

end PinKeeper.Command
