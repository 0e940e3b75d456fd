import PinKeeper.Files.Tree
import PinKeeper.Policy.Format

/-!
# Policy/Store — the policy file

Which file holds the policy is said on the command line, in the environment or by default.  A file
with the extension of tables is one; any other is a block document.  The file holds credentials, so
it is made readable for its owner alone.
-/

namespace PinKeeper

/-- Values of environment variables. -/
abbrev Environment := List (String × String)

namespace PolicyFile

/-- Variable that names the policy file. -/
def locationVariable : String := "CCS_CONFIG"

/-- Path below the home directory. -/
def defaultPath (home : String) : String := Path.join (Path.join home ".ccs") "config.yml"

/-- Path of the policy file: the one that is asked for, the one in the environment, or the
default. -/
def path (env : Environment) (home : Option String) : Option String → Except Failure String
  | some p => .ok p
  | none =>
    match nonEmpty (env.lookup locationVariable), home with
    | some p, _ => .ok p
    | none, some home => .ok (defaultPath home)
    | none, none => .error (.configuration "Could not determine home directory")
where
  nonEmpty (v : Option String) : Option String := v.filter fun p => !p.isEmpty

/-- Format of a file. -/
def format (path : String) : PolicyFormat :=
  if Path.extension? path == some "toml" then .toml else .yaml

/-- Failure of a file that is not there. -/
def missing (path : String) : Failure := .configuration ("Config file not found: " ++ path)

/-- Policy from what was found at a path. -/
def ofEntry (path : String) : Except FileError Entry → Except Failure Policy
  | .error _ => .error (missing path)
  | .ok entry =>
    match entry.read with
    | .error e => .error (.io e.message)
    | .ok content =>
      match content.text? with
      | some text => (format path).parse text
      | none => .error (.io FileError.notText.message)

/-- Reads the policy at a path. -/
def load (d : Disk) (path : String) : Except Failure Policy := ofEntry path (d.entry path)

/-- Permissions of a policy file: its owner reads and writes. -/
def ownerOnly : Nat := 0o600

/-- Makes the directories above a path. -/
def makeAbove (path : String) (d : Disk) : Except FileError Disk :=
  match Path.parent? path with
  | some above => d.makeDirs above
  | none => .ok d

/-- Runs an operation on files, which is done to its end or not at all. -/
def onDisk (f : Disk → Except FileError Disk) : EStateM Failure Disk Unit := fun d =>
  match f d with
  | .ok d => .ok () d
  | .error e => .error (.io e.message) d

/-- Writes the policy to a path, with the directories above it.  Nothing is written of a policy that
the format cannot express. -/
def store (p : Policy) (path : String) : EStateM Failure Disk Unit := do
  onDisk (makeAbove path)
  let text ← MonadExcept.ofExcept ((format path).print p)
  onDisk fun d => d.write path (.ofText text)
  onDisk fun d => d.setMode path ownerOnly

/-- Disk with the policy at a path. -/
def save (d : Disk) (p : Policy) (path : String) : Except Failure Disk :=
  match (store p path).run d with
  | .ok () d => .ok d
  | .error e _ => .error e

end PolicyFile

end PinKeeper
