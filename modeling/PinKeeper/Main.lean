import PinKeeper.Command.Run
import PinKeeper.Http.Wire
import PinKeeper.Time.Epoch
import Std.Async.DNS
import Std.Async.TCP
import Std.Async.Timer
import Std.Time.DateTime.Timestamp

/-!
# Main — the program in the real world

Builds the `World` of the process: files of the operating system, connections without encryption,
the clock and the environment.  All that is decided is decided in `Command.program`.
-/

namespace PinKeeper.Main

open Std.Async

/-! ## Files -/

/-- Number and wording of an error of the operating system. -/
def systemError : IO.Error → Nat × String
  | .alreadyExists _ n s | .otherError n s | .resourceBusy n s | .resourceVanished n s
  | .unsupportedOperation n s | .hardwareFault n s | .unsatisfiedConstraints n s
  | .illegalOperation n s | .protocolError n s | .timeExpired n s | .interrupted _ n s
  | .noFileOrDirectory _ n s | .invalidArgument _ n s | .permissionDenied _ n s
  | .resourceExhausted _ n s | .inappropriateType _ n s | .noSuchThing _ n s => (n.toNat, s)
  | .unexpectedEof => (0, "unexpected end of file")
  | .userError s => (0, s)

/-- Error of an operation on files. -/
def fileError (e : IO.Error) : FileError :=
  match systemError e with
  | (2, _) => .notFound
  | (17, _) => .alreadyExists
  | (20, _) => .notDirectory
  | (21, _) => .isDirectory
  | (40, _) => .tooManyLinks
  | (n, s) => .other (s ++ " (os error " ++ Text.natural n ++ ")")

/-- Result of an operation on files. -/
def attempt (action : IO α) : IO (Except FileError α) := do
  match ← action.toBaseIO with
  | .ok a => return .ok a
  | .error e => return .error (fileError e)

/-- Names and kinds of what is in a directory. -/
def list (path : String) : IO (List (IO.FS.DirEntry × IO.FS.FileType)) := do
  let mut entries := []
  for e in ← (← IO.FS.realPath path).readDir do
    entries := (e, (← e.path.symlinkMetadata).type) :: entries
  return entries

/-- Entry at a path of which the kind is known, with all that is below it. -/
partial def load (path : String) (kind : IO.FS.FileType) : IO Entry := do
  match kind with
  | .file => return .file (.bytes (← IO.FS.readBinFile path)) Disk.defaultMode
  | .symlink => return .link ""
  | .other => return .device
  | .dir =>
    match ← attempt (list path) with
    | .error why => return .barred why
    | .ok listed => return .directory (← listed.mapM fun (e, kind) =>
        return (e.fileName, ← load e.path.toString kind))

/-- What is at a path. -/
def lookup (path : String) : IO (Except FileError Entry) :=
  attempt do
    let target ← IO.FS.realPath path
    load path (← target.metadata).type

/-! ## Connections -/

/-- Addresses of a host. -/
def addresses (host : String) : Async (Array Std.Net.IPAddr) :=
  match Std.Net.IPv4Addr.ofString host with
  | some a => return #[.v4 a]
  | none => DNS.getAddrInfo host ""

/-- Address with a port. -/
def endpoint (port : Nat) : Std.Net.IPAddr → Std.Net.SocketAddress
  | .v4 a => .v4 ⟨a, port.toUInt16⟩
  | .v6 a => .v6 ⟨a, port.toUInt16⟩

/-- Connects to the first address that answers. -/
def connect (port : Nat) : List Std.Net.IPAddr → Async (Option TCP.Socket.Client)
  | [] => return none
  | a :: as => do
    try
      let socket ← TCP.Socket.Client.mk
      socket.connect (endpoint port a)
      return some socket
    catch _ => connect port as

/-- Receives until the connection ends. -/
partial def receive (socket : TCP.Socket.Client) (bytes : ByteArray) : Async ByteArray := do
  match ← socket.recv? 65536 with
  | some more => receive socket (bytes ++ more)
  | none => return bytes

/-- Sends a request and takes the reply. -/
def talk (r : Http.Request) : Async (Option Http.Reply) := do
  match ← connect r.url.port (← addresses r.url.host).toList with
  | none => return none
  | some socket =>
    socket.send r.bytes
    return Http.Reply.ofBytes? (← receive socket ByteArray.empty)

/-- Sends a request over a connection that is not encrypted, within the time that it may take. -/
def exchange (s : TransportSettings) (r : Http.Request) : IO (Option Http.Reply) := do
  if r.url.secure then return none
  else
    let limit : Async (Option Http.Reply) := do
      sleep (.ofNat (1000 * r.timeout s))
      return none
    match ← (Async.race (talk r) limit).block.toBaseIO with
    | .ok reply => return reply
    | .error _ => return none

/-! ## The process -/

/-- Variables that the program knows. -/
def knownVariables : List String :=
  [PolicyFile.locationVariable, "HOME", "CCS_API_PORT", "CCS_GATEWAY_PORT", "CCS_TIMEOUT_SECS",
    "CCS_REQUEST_DELAY_MS", "CCS_DRY_RUN", "CCS_DEBUG"]

/-- Environment of the process. -/
def environment : IO Environment := do
  let mut env : Environment := []
  for name in knownVariables do
    match ← IO.getEnv name with
    | some value => env := (name, value) :: env
    | none => pure ()
  return env

/-- Time of the clock. -/
def now : IO Time.Instant := do
  let time := (← Std.Time.Timestamp.now).val
  return .ofClock time.second.val time.nano.val.toNat

/-- World of the process. -/
def world (env : Environment) (debug : Bool) : Command.World IO where
  transport := {
    exchange := exchange (.ofEnvironment env)
    write := fun path content => attempt (IO.FS.writeBinFile path content.toBytes)
    log := fun note => if debug then IO.eprintln note else pure ()
    decode := Http.bodyText }
  lookup := lookup
  makeDirs path := attempt (IO.FS.createDirAll path)
  now := now
  pause ms := IO.sleep ms.toUInt32
  environment := env
  home := (env.lookup "HOME").filter fun home => !home.isEmpty

end PinKeeper.Main

def main (args : List String) : IO UInt32 := do
  let env ← PinKeeper.Main.environment
  let world := PinKeeper.Main.world env (PinKeeper.Command.wantsNotes env args)
  let exit ← PinKeeper.Command.program world args
  IO.print exit.output
  IO.eprint exit.errors
  return exit.code.toUInt32
