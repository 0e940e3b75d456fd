import PinKeeper.Http.Exchange
import PinKeeper.Http.Listing
import PinKeeper.Pin.Wire
import PinKeeper.Settings
import PinKeeper.Text.Base64
import PinKeeper.Total

/-!
# Http/Client — the cluster over its web interface

A node offers two services: the interface of the cluster, with a resource for each pin, and a
gateway that serves content.  A `Client` knows the addresses of both at one node, and
`Client.cluster` makes the operations of a `Cluster` of them.
-/

namespace PinKeeper.Http

/-- Access to a node. -/
structure Client where
  host : String
  /-- Address of the interface, without a slash at the end. -/
  api : String
  /-- Address of the gateway, without a slash at the end. -/
  gateway : String
  credentials : Option Credentials
  /-- Port of the gateways of other nodes. -/
  gatewayPort : Nat

/-- Address without the slashes at its end. -/
def withoutSlash (url : String) : String :=
  String.ofList (url.toList.reverse.dropWhile (· == '/')).reverse

/-- Address of a service of a host. -/
def serviceUrl (host : String) (port : Nat) : String :=
  "http://" ++ host ++ ":" ++ Text.natural port

/-- Credentials as they are sent. -/
def basicAuthorization (user password : String) : String :=
  "Basic " ++ Text.Base64.ofText (user ++ ":" ++ password)

/-! ## Values in answers -/

/-- Value of a metric: a number, or a text that counts as zero unless it is a number. -/
def metricValue? : Json → Option Nat
  | .text s => some ((Text.natural? Text.max64 (Text.trimmed s)).getD 0)
  | v => Json.asNat Text.max64 v

/-- Reads a metric: the peer that it is about and its value. -/
def metric? (v : Json) : Option (String × Nat) := do
  match ← Json.slots [["peer"], ["value"]] v with
  | [peer, value] =>
    some (← Json.orDefault "" Json.asText peer, ← Json.orDefault 0 metricValue? value)
  | _ => none

/-- Metrics by peer; one that is about no peer counts for nothing. -/
def metrics (ms : List (String × Nat)) : Dict Nat :=
  Dict.ofList (ms.filter fun m => !m.1.isEmpty)

/-- Reads the size of what a link leads to. -/
def linkSize? (v : Json) : Option Nat := do
  match ← Json.slots [["Tsize"]] v with
  | [size] => Json.orDefault 0 (Json.asNat Text.max64) size
  | _ => none

/-- Reads the sizes of the links of a block. -/
def linkSizes? (v : Json) : Option (List Nat) := do
  match ← Json.slots [["Links"]] v with
  | [links] => Json.orDefault [] (Json.asList linkSize?) links
  | _ => none

/-- Length that the headers of an answer tell. -/
def toldLength? (headers : List (String × String)) : Option Nat :=
  (header? headers "Content-Length").bind (Text.natural? Text.max64)

/-- True if an answer is a page: that is how the gateway shows a directory. -/
def isPage (headers : List (String × String)) : Bool :=
  (header? headers "Content-Type").any fun v => isShowable v && Text.startsWith v "text/html"

/-- Value, or the error of an answer that makes no sense. -/
def decoded (v : Option α) : Except ClusterError α :=
  match v with
  | some a => .ok a
  | none => .error (.decode "the body is not what was asked for")

/-! ## Parameters of requests -/

/-- Parameter with a value that may be missing. -/
def optionalParameter (name : String) : Option String → List (String × String)
  | some v => [(name, v)]
  | none => []

/-- Parameter for the peers to allocate to; no peers, no parameter. -/
def allocationParameter (peers : List String) : List (String × String) :=
  if peers.isEmpty then [] else [("allocations", Text.joined "," peers)]

/-- Parameters for metadata. -/
def metadataParameters (d : Dict String) : List (String × String) :=
  d.entries.map fun e => ("meta-" ++ e.1, e.2)

/-- Parameters of a pin request. -/
def pinParameters (r : PinRequest) : List (String × String) :=
  [("mode", "recursive")] ++ optionalParameter "name" r.name ++
    allocationParameter r.allocations ++
    optionalParameter "replication-min" (r.replicationMin.map Text.integer) ++
    optionalParameter "replication-max" (r.replicationMax.map Text.integer) ++
    metadataParameters r.metadata

/-- Parameters of a request to add content. -/
def addParameters (r : AddRequest) : List (String × String) :=
  [("name", r.name)] ++ allocationParameter r.allocations ++
    (if r.onReceiver then [("local", "true")] else []) ++ metadataParameters r.metadata

/-- Files as parts of a body. -/
def parts (files : List LocalFile) : List Part := files.map fun f => ⟨f.name, f.content⟩

namespace Client

/-- Access to a node by the addresses of its services. -/
def ofUrls (host api gateway : String) (credentials : Option Credentials)
    (s : TransportSettings) : Client :=
  ⟨host, withoutSlash api, withoutSlash gateway, credentials, s.gatewayPort⟩

/-- Access to a host. -/
def ofHost (host : String) (credentials : Option Credentials) (s : TransportSettings) : Client :=
  ofUrls host (serviceUrl host s.apiPort) (serviceUrl host s.gatewayPort) credentials s

/-- Address of the gateway of a host; a host may also be given as an address. -/
def gatewayOf (c : Client) (host : String) : String :=
  if host = c.host then c.gateway
  else if (host.splitOn "://").length > 1 then withoutSlash host
  else serviceUrl host c.gatewayPort

/-- Request to an address.  Credentials in the address come before those of the client. -/
def request (c : Client) (method : Method) (url : String) (ps : List (String × String))
    (form : Option (List Part)) : Except ClusterError Request :=
  match Web.Url.parse url with
  | .error _ => .error (.http "the address is invalid")
  | .ok u =>
    let authorization :=
      match u.user, c.credentials with
      | some (user, password), _ => some (basicAuthorization user (password.getD ""))
      | none, some a => some (basicAuthorization a.user a.password)
      | none, none => none
    .ok ⟨method, u.withParameters ps, authorization, form⟩

/-- Address of the resource of a pin. -/
def pinUrl (c : Client) (cid : String) : String := c.api ++ "/pins/" ++ cid

/-- Address of content at a gateway. -/
def contentUrl (gateway cid : String) : String := gateway ++ "/ipfs/" ++ cid

variable {m : Type → Type} [Monad m] (c : Client) (t : Transport m)

/-- Asks for an answer. -/
def ask (method : Method) (url : String) (ps : List (String × String)) :
    m (Except ClusterError Answer) :=
  match c.request method url ps none with
  | .error e => return .error e
  | .ok r => send t r

/-- Asks for a text and reads it. -/
def askFor (url : String) (ps : List (String × String)) (read : String → Option α) :
    m (Except ClusterError α) := do
  match c.request .get url ps none with
  | .error e => return .error e
  | .ok r =>
    match ← sendForText t r with
    | .error e => return .error e
    | .ok body => return decoded (read body)

/-- Asks for something to be done. -/
def order (method : Method) (url : String) (ps : List (String × String)) :
    m (Except ClusterError Unit) := do
  return (← c.ask t method url ps).map fun _ => ()

/-- Adds content. -/
def add (r : AddRequest) : m (Except ClusterError (List AddedEntry)) := do
  match c.request .post (c.api ++ "/add") (addParameters r) (some (parts r.files)) with
  | .error e => return .error e
  | .ok request =>
    match ← sendForText t request with
    | .error e => return .error e
    | .ok body => return decoded (listing? AddedEntry.ofJson? body)

/-- Size of all below an identifier: of what its links lead to, in 64 bits, or else of the content
itself. -/
def dagSize (cid : String) : m (Except ClusterError Nat) := do
  let url := contentUrl c.gateway cid
  match ← c.askFor t url [("format", "dag-json")] fun body =>
      (Json.parse? body).bind linkSizes? with
  | .error e => return .error e
  | .ok [] => return (← c.ask t .head url []).map fun a => (toldLength? a.headers).getD 0
  | .ok sizes => return .ok (sum64 sizes)

/-- Writes the body of an answer to a path.  What came of a broken body stays there, and so does
what was written of one when the write broke off. -/
def store (path : String) (isDirectory : Bool) (body : Body) :
    m (Except ClusterError Download) := do
  let content := match body with
    | .whole content | .cut content => content
  match ← t.write path content with
  | .error e => return .error (.io e.message)
  | .ok () =>
    match body with
    | .whole _ => return .ok ⟨path, content.length, isDirectory⟩
    | .cut _ => return .error (.http "the body broke off")

/-- Downloads content from a gateway, a directory as an archive. -/
def download (host cid path : String) : m (Except ClusterError Download) := do
  let url := contentUrl (c.gatewayOf host) cid
  match ← c.ask t .head url [] with
  | .error e => return .error e
  | .ok a =>
    let isDirectory := isPage a.headers
    match ← c.ask t .get url (if isDirectory then [("format", "tar")] else []) with
    | .error e => return .error e
    | .ok a => store t path isDirectory a.body

/-- The cluster behind a node. -/
def cluster : Cluster m where
  host := c.host
  peers := c.askFor t (c.api ++ "/peers") [] (listing? fun _ => Peer.ofJson?)
  pins := c.askFor t (c.api ++ "/pins") [] (listing? Pin.ofJson?)
  pinStatus cid := c.askFor t (c.pinUrl cid) [] fun body =>
    (Json.parse? body).bind (Pin.ofJson? 0)
  add := c.add t
  pin r := c.order t .post (c.pinUrl r.cid) (pinParameters r)
  unpin cid := c.order t .delete (c.pinUrl cid) []
  recover cid := c.order t .post (c.pinUrl cid ++ "/recover") []
  freeSpace := c.askFor t (c.api ++ "/monitor/metrics/freespace") [] fun body =>
    (listing? (fun _ => metric?) body).map metrics
  dagSize := c.dagSize t
  download := c.download t

end Client

end PinKeeper.Http
