import PinKeeper.Text.Decimal

/-!
# Error — why an operation gives no result

Three layers of causes.  An `AllocationError` says what the policy lacks to place content, a
`ClusterError` what went wrong between this program and the cluster, and a `Failure` is either of
them or a problem of the policy, the arguments or the local files.  Each cause has one wording,
its `message`.
-/

namespace PinKeeper

/-- What the policy lacks to place the content of a profile. -/
inductive AllocationError where
  | unknownProfile (name : String)
  | unknownPrimary (name : String)
  | primaryWithoutPeerId (name : String)
  | noBackup
  | unknownBackup (name : String)
  | backupWithoutPeerId (name : String)
deriving DecidableEq, Repr

def AllocationError.message : AllocationError → String
  | .unknownProfile name => "Profile '" ++ name ++ "' not found in config"
  | .unknownPrimary name => "Primary node '" ++ name ++ "' not found in config"
  | .primaryWithoutPeerId name => "Primary node '" ++ name ++ "' has no peer_id in config"
  | .noBackup => "No backup_node configured"
  | .unknownBackup name => "Backup node '" ++ name ++ "' not found in config"
  | .backupWithoutPeerId name => "Backup node '" ++ name ++ "' has no peer_id in config"

/-- What went wrong with a call to the cluster or its gateway. -/
inductive ClusterError where
  | unauthorized
  | api (status : Nat) (text : String)
  | http (text : String)
  | decode (text : String)
  | io (text : String)
deriving DecidableEq, Repr

namespace ClusterError

def message : ClusterError → String
  | .unauthorized => "Unauthorized: check basic auth credentials"
  | .api _ text => text
  | .http text => "HTTP error: " ++ text
  | .decode text => "Malformed response: " ++ text
  | .io text => "I/O error: " ++ text

/-- Status of the answer, when the cluster answered at all. -/
def status? : ClusterError → Option Nat
  | .unauthorized => some 401
  | .api status _ => some status
  | _ => none

/-- What the error comes from, where that is an error of its own. -/
def cause? : ClusterError → Option String
  | .io text => some text
  | _ => none

/-- Error for an answer that is no success: 401 is a matter of credentials, whatever it says. -/
def ofStatus (status : Nat) (text : String) : ClusterError :=
  if status = 401 then .unauthorized else .api status text

end ClusterError

/-- Why an operation gives no result. -/
inductive Failure where
  | configuration (text : String)
  | allocation (cause : AllocationError)
  | transport (cause : ClusterError)
  | validation (text : String)
  | io (text : String)
  | serialization (text : String)
deriving DecidableEq, Repr

namespace Failure

def message : Failure → String
  | .configuration text => "Configuration error: " ++ text
  | .allocation cause => cause.message
  | .transport cause => cause.message
  | .validation text => text
  | .io text => "I/O error: " ++ text
  | .serialization text => "Serialization error: " ++ text

/-- What the failure comes from, where that is an error of its own. -/
def cause? : Failure → Option String
  | .transport cause => cause.cause?
  | .io text => some text
  | _ => none

/-- Message with all that led to it, the last thing first.  A message may name its cause itself, and
the cause follows all the same. -/
def account (f : Failure) : String :=
  match f.cause? with
  | some cause => f.message ++ ": " ++ cause
  | none => f.message

/-- True if the policy is at fault rather than the cluster or the arguments. -/
def isConfiguration : Failure → Bool
  | .configuration _ | .allocation _ => true
  | _ => false

end Failure

end PinKeeper
