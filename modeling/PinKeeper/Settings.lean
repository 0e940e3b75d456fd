import PinKeeper.Policy.Store
import PinKeeper.Text.Decimal

/-!
# Settings — what the environment says about a run

Each setting has a default, which also stands in for a value that cannot be read.  The time allowed
for an upload grows with its size.
-/

namespace PinKeeper

/-- Number of at most `max` in a variable. -/
def Environment.number (env : Environment) (max : Nat) (name : String) : Option Nat :=
  (env.lookup name).bind (Text.natural? max)

/-- Settings of the passes over all pins. -/
structure ScanSettings where
  dryRun : Bool
  /-- Pause after each write, in milliseconds. -/
  delay : Nat
deriving DecidableEq, Repr

/-- Pause after each write where the environment does not say. -/
def ScanSettings.defaultDelay : Nat := 100

/-- Settings by the environment. -/
def ScanSettings.ofEnvironment (env : Environment) : ScanSettings where
  dryRun := (env.lookup "CCS_DRY_RUN").any fun v => v == "true" || v == "1"
  delay := (env.number Text.max64 "CCS_REQUEST_DELAY_MS").getD defaultDelay

/-- Settings of the transport; times are in seconds. -/
structure TransportSettings where
  apiPort : Nat
  gatewayPort : Nat
  requestTimeout : Nat
  /-- Time added for each mebibyte of an upload. -/
  addTimeoutPerMib : Nat
deriving DecidableEq, Repr

namespace TransportSettings

/-- Port of the cluster's interface where the environment does not say. -/
def defaultApiPort : Nat := 9094

/-- Port of the gateway where the environment does not say. -/
def defaultGatewayPort : Nat := 8080

/-- Time for a request where the environment does not say. -/
def defaultTimeout : Nat := 300

/-- Settings by the environment. -/
def ofEnvironment (env : Environment) : TransportSettings where
  apiPort := (env.number Text.max16 "CCS_API_PORT").getD defaultApiPort
  gatewayPort := (env.number Text.max16 "CCS_GATEWAY_PORT").getD defaultGatewayPort
  requestTimeout := (env.number Text.max64 "CCS_TIMEOUT_SECS").getD defaultTimeout
  addTimeoutPerMib := 1

/-- Bytes of a mebibyte. -/
def mebibyte : Nat := 1048576

/-- Time for an upload of a number of bytes, as far as a counter of 64 bits goes. -/
def addTimeout (s : TransportSettings) (bytes : Nat) : Nat :=
  min (s.requestTimeout + (bytes + mebibyte - 1) / mebibyte * s.addTimeoutPerMib) Text.max64

end TransportSettings

end PinKeeper
