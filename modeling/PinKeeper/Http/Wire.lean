import PinKeeper.Http.Message
import PinKeeper.Settings
import PinKeeper.Total

/-!
# Http/Wire — requests and replies as bytes on a connection

A connection carries one request and one reply, and ends with it.  The files of a form stand between
boundary lines, and the boundary is chosen so that it is in none of them.
-/

namespace PinKeeper.Http

/-- Bytes of lines, each with its end. -/
def lineBytes (lines : List String) : ByteArray := (String.join (lines.map (· ++ "\r\n"))).toUTF8

/-! ## Forms -/

/-- True if bytes have others in them. -/
def hasWithin (part bytes : ByteArray) : Bool :=
  Nat.any (bytes.size + 1 - part.size) fun i _ =>
    bytes.data[i]? == part.data[0]? && bytes.extract i (i + part.size) == part

/-- Boundary with a number. -/
def boundaryOf (n : Nat) : String := "pinkeeper-" ++ Text.zeroPadded 20 n

/-- First boundary, from a number on, that is in none of the contents; the fuel bounds the
numbers. -/
def freeBoundary (contents : List ByteArray) : (fuel : Nat) → Nat → String
  | 0, n => boundaryOf n
  | fuel + 1, n =>
    let boundary := boundaryOf n
    if contents.any (hasWithin boundary.toUTF8) then freeBoundary contents fuel (n + 1)
    else boundary

/-- Boundary for parts. -/
def boundaryFor (parts : List Part) : String :=
  let contents := parts.map fun p => p.content.toBytes
  freeBoundary contents (sumOf (contents.map ByteArray.size) + 1) 0

/-- Bytes of a form. -/
def formBytes (boundary : String) (parts : List Part) : ByteArray :=
  parts.foldl (fun bytes p =>
    bytes ++ lineBytes (["--" ++ boundary] ++ p.headers ++ [""]) ++ p.content.toBytes ++
      lineBytes [""]) ByteArray.empty ++ lineBytes ["--" ++ boundary ++ "--"]

/-! ## Requests -/

/-- Host as a request names it. -/
def hostHeader (u : Web.Url) : String :=
  if u.port = Web.Url.defaultPort u.secure then u.host else u.host ++ ":" ++ Text.natural u.port

/-- Body of a request with the headers that describe it. -/
def Request.body (r : Request) : List String × ByteArray :=
  match r.form with
  | none => ([], ByteArray.empty)
  | some parts =>
    let boundary := boundaryFor parts
    let bytes := formBytes boundary parts
    (["Content-Type: multipart/form-data; boundary=" ++ boundary,
      "Content-Length: " ++ Text.natural bytes.size], bytes)

/-- Bytes of a request. -/
def Request.bytes (r : Request) : ByteArray :=
  let (headers, body) := r.body
  lineBytes ([r.method.name ++ " " ++ r.url.target ++ " HTTP/1.1", "Host: " ++ hostHeader r.url,
    "Accept: */*", "Connection: close"] ++
    (match r.authorization with
      | some a => ["Authorization: " ++ a]
      | none => []) ++ headers ++ [""]) ++ body

/-- Seconds that a request may take. -/
def Request.timeout (s : TransportSettings) (r : Request) : Nat :=
  match r.form with
  | none => s.requestTimeout
  | some parts => s.addTimeout (sum64 (parts.map fun p => p.content.length))

/-! ## Replies -/

/-- Splits the line that comes first from what follows it. -/
def takeLine (bytes : ByteArray) (start : Nat) : Option (String × Nat) :=
  (bytes.findIdx? (· == 10) start).map fun stop =>
    let line := (bytes.extract start stop).toList.map fun b => Char.ofNat b.toNat
    (String.ofList (Text.dropReturn line), stop + 1)

/-- Status of the first line of a reply. -/
def statusOf? (line : String) : Option Nat :=
  match Text.splitAt ' ' line.toList with
  | version :: code :: _ =>
    if Text.startsWith (String.ofList version) "HTTP/1." && code.length == 3 then
      Text.ofDigits? code
    else none
  | _ => none

/-- Header of a line. -/
def headerOf? (line : String) : Option (String × String) :=
  let name := line.toList.takeWhile (· != ':')
  match line.toList.drop name.length with
  | _ :: value =>
    if name.isEmpty then none
    else some (String.ofList name, headerValue (String.ofList value))
  | [] => none

/-- Headers up to the empty line, and where the body starts; the fuel bounds the lines. -/
def headersFrom? (bytes : ByteArray) : (fuel : Nat) → Nat → Option (List (String × String) × Nat)
  | 0, _ => none
  | fuel + 1, start => do
    let (line, next) ← takeLine bytes start
    if line.isEmpty then some ([], next)
    else
      let header ← headerOf? line
      let (headers, body) ← headersFrom? bytes fuel next
      some (header :: headers, body)

/-- Lines that the head of a reply may have. -/
def maxHeadLines : Nat := 100

/-- Reply in bytes from a place on; replies that only announce another one are passed over, and the
fuel bounds their number. -/
def replyFrom? (bytes : ByteArray) : (fuel : Nat) → Nat → Option Reply
  | 0, _ => none
  | fuel + 1, start => do
    let (line, next) ← takeLine bytes start
    let status ← statusOf? line
    let (headers, body) ← headersFrom? bytes maxHeadLines next
    if 100 ≤ status && status < 200 && status != 101 then replyFrom? bytes fuel body
    else some ⟨status, headers, .bytes (bytes.extract body bytes.size)⟩

/-- Reply in bytes. -/
def Reply.ofBytes? (bytes : ByteArray) : Option Reply := replyFrom? bytes maxHeadLines 0

end PinKeeper.Http
