import PinKeeper.Cluster.Interface
import PinKeeper.Http.Framing
import PinKeeper.Json.Reader
import PinKeeper.Json.Record
import PinKeeper.Text.Column

/-!
# Http/Exchange — asking a server and following where it sends one

A `Transport` is what the transport needs of the world: one request for one reply, a place for what
is downloaded, a log, and how the bytes of a body are read as a text.  `send` asks, follows
redirections as far as they may go and tells success from failure; every answer that is no success
becomes a `ClusterError` with the message that the server gives.
-/

namespace PinKeeper.Http

/-- What is outside of the transport. -/
structure Transport (m : Type → Type) where
  /-- Sends a request and takes the reply, if one comes. -/
  exchange : Request → m (Option Reply)
  /-- Opens and empties a file and writes it; a write that breaks off leaves what it has written. -/
  write : (path : String) → Content → m (Except FileError Unit)
  /-- Notes the body of an answer. -/
  log : String → m Unit
  /-- Reads the bytes of a body as a text, by the content type that was told. -/
  decode : (contentType : Option String) → ByteArray → String

/-- Text of an answer, if its body came whole. -/
def Transport.text? {m : Type → Type} (t : Transport m) (a : Answer) : Option String :=
  match a.body with
  | .whole content => some (t.decode (header? a.headers "Content-Type") content.toBytes)
  | .cut _ => none

/-! ## Redirections -/

/-- Request at another address.  Most redirections ask for the resource and not for the action;
two kinds ask for the same request again. -/
def Request.redirected (r : Request) (status : Nat) (url : Web.Url) : Request :=
  { method := if status < 304 && r.method != .head then .get else r.method
    url := url
    authorization := if r.url.sameServer url then r.authorization else none
    form := if status < 304 then none else r.form }

/-- True if an answer sends the request elsewhere. -/
def Request.canFollow (r : Request) (status : Nat) : Bool :=
  status = 301 || status = 302 || status = 303 ||
    ((status = 307 || status = 308) && (r.form.getD []).isEmpty)

/-- Where an answer sends a request: nowhere, to an address, or to one that cannot be asked.  An
address that cannot be read counts as none. -/
def Request.next? (r : Request) (a : Answer) : Option (Except ClusterError Request) :=
  if r.canFollow a.status then
    match header? a.headers "Location" with
    | none => none
    | some location =>
      match r.url.join location with
      | .ok url => some (.ok (r.redirected a.status url))
      | .error .foreign => some (.error (.http "redirected to an unknown scheme"))
      | .error .malformed => none
  else none

/-- Requests that one request may become. -/
def maxRequests : Nat := 10

variable {m : Type → Type} [Monad m]

/-- Sends a request, and in its place at most `room` in all. -/
def follow (t : Transport m) : (room : Nat) → Request → m (Except ClusterError Answer)
  | 0, _ => return .error (.http "too many redirections")
  | room + 1, r => do
    match (← t.exchange r).bind fun reply => reply.answer? r.method with
    | none => return .error (.http "no answer")
    | some a =>
      match r.next? a with
      | none => return .ok a
      | some (.error e) => return .error e
      | some (.ok r) => follow t room r

/-! ## Success and failure -/

/-- Characters of a body that are noted. -/
def notedChars : Nat := 2000

/-- What is noted of a body. -/
def noted (body : String) : String :=
  if body.isEmpty then "(empty)" else Text.firstChars notedChars body

/-- What a failure says: the message in its body if it has one, or the whole body. -/
def failureText (body : String) : String :=
  let message : Option String := do
    match ← Json.slots [["message"]] (← Json.parse? body) with
    | [some v] => ← Json.nullable Json.asText v
    | _ => none
  match message with
  | some s => if s.isEmpty then body else s
  | none => body

/-- Sends a request; an answer that is no success is an error. -/
def send (t : Transport m) (r : Request) : m (Except ClusterError Answer) := do
  match ← follow t maxRequests r with
  | .error e => return .error e
  | .ok a =>
    if 200 ≤ a.status && a.status < 300 then return .ok a
    else
      let body := (t.text? a).getD ""
      t.log (noted body)
      return .error (.ofStatus a.status (failureText body))

/-- Sends a request for the text of the answer. -/
def sendForText (t : Transport m) (r : Request) :
    m (Except ClusterError String) := do
  match ← send t r with
  | .error e => return .error e
  | .ok a =>
    match t.text? a with
    | none => return .error (.http "the body broke off")
    | some body =>
      t.log (noted body)
      return .ok body

end PinKeeper.Http
