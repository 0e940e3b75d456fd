import PinKeeper.Files.Tree
import PinKeeper.Web.Url

/-!
# Http/Message — requests and what comes back

A `Request` says what is asked of which address.  A `Reply` is what comes back over the connection,
and its bytes are not yet the body: where the body ends is for the reply itself to say
(`Http/Framing`).  Names of headers are the same in either case.
-/

namespace PinKeeper.Http

/-- What a request does to its resource. -/
inductive Method where
  | get | head | post | delete
deriving DecidableEq, Repr

def Method.name : Method → String
  | .get => "GET"
  | .head => "HEAD"
  | .post => "POST"
  | .delete => "DELETE"

/-- File in the body of a request. -/
structure Part where
  fileName : String
  content : Content

/-- File name as it stands between quotes. -/
def quotedName (s : String) : String :=
  String.ofList (s.toList.flatMap fun c =>
    if c == '\\' || c == '"' || c == '\r' || c == '\n' then ['\\', c] else [c])

/-- Lines in front of the content of a part. -/
def Part.headers (p : Part) : List String :=
  ["Content-Disposition: form-data; name=\"file\"; filename=\"" ++ quotedName p.fileName ++ "\"",
    "Content-Type: application/octet-stream"]

/-- Request to a server. -/
structure Request where
  method : Method
  url : Web.Url
  /-- Credentials as they are sent. -/
  authorization : Option String
  /-- Files that make up the body, if there is one. -/
  form : Option (List Part)

/-- What comes back over a connection until it ends. -/
structure Reply where
  status : Nat
  headers : List (String × String)
  bytes : Content

/-- True for two spellings of one header name. -/
def sameHeader (a b : String) : Bool := a.toList.map Char.toLower == b.toList.map Char.toLower

/-- Drops the blanks around the value of a header. -/
def headerValue (s : String) : String :=
  let isGap (c : Char) : Bool := c == ' ' || c == '\t'
  String.ofList ((s.toList.dropWhile isGap).reverse.dropWhile isGap).reverse

/-- Values of a header, in order. -/
def headerValues (headers : List (String × String)) (name : String) : List String :=
  (headers.filter fun h => sameHeader h.1 name).map fun h => headerValue h.2

/-- First value of a header. -/
def header? (headers : List (String × String)) (name : String) : Option String :=
  (headerValues headers name).head?

/-- True for a header value that can be shown. -/
def isShowable (v : String) : Bool := v.toList.all fun c => c == '\t' || (' ' ≤ c && c ≤ '~')

namespace Reply

/-- Reply with nothing but a text. -/
def plain (status : Nat) (text : String) : Reply := ⟨status, [], .ofText text⟩

/-- Reply that says how long it is, unless it does so already. -/
def measured (r : Reply) : Reply :=
  if (header? r.headers "Content-Length").isSome then r
  else { r with
    headers := r.headers ++ [("Content-Length", Text.natural r.bytes.length)] }

end Reply

end PinKeeper.Http
