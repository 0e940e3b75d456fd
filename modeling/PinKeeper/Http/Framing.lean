import PinKeeper.Http.Message

/-!
# Http/Framing — where the body of a reply ends

Some replies have no body whatever they say.  Otherwise the body comes in chunks that each give
their size, or has the length that the reply announces, or goes on until the connection ends.  A
body that ends too early is `cut`, which shows only when it is read; a reply whose announcement
makes no sense is no reply (`Reply.answer?`).  A body that is read as a text is in the coding that
its content type or its mark tells (`bodyText`).
-/

namespace PinKeeper.Http

/-- Body of an answer. -/
inductive Body where
  | whole (content : Content)
  /-- What came of a body before it broke off. -/
  | cut (content : Content)

/-- Reply with its body told apart from the bytes of the connection. -/
structure Answer where
  status : Nat
  headers : List (String × String)
  body : Body

/-! ## Bodies in chunks -/

/-- Number of a line that starts a chunk; an extension may follow it. -/
def chunkSize? (line : List UInt8) : Option Nat :=
  let isGap (c : Char) : Bool := c == ' ' || c == '\t'
  let cs := (line.map fun b => Char.ofNat b.toNat).takeWhile (· != ';')
  let ds := (cs.reverse.dropWhile isGap).reverse
  if ds.isEmpty then none else (Text.hexNumber? ds).filter (· ≤ Text.max64)

/-- Splits the first line from what follows its end. -/
def splitLine? (bs : List UInt8) : Option (List UInt8 × List UInt8) :=
  match bs.dropWhile (· != 13) with
  | 13 :: 10 :: rest => some (bs.takeWhile (· != 13), rest)
  | _ => none

/-- Contents of the chunks, backwards, and whether the last one was seen; the fuel bounds the number
of chunks. -/
def chunks : (fuel : Nat) → List (List UInt8) → List UInt8 → List (List UInt8) × Bool
  | 0, done, _ => (done, false)
  | fuel + 1, done, bs =>
    match splitLine? bs with
    | none => (done, false)
    | some (line, rest) =>
      match chunkSize? line with
      | none => (done, false)
      | some 0 => (done, true)
      | some n =>
        match rest.drop n with
        | 13 :: 10 :: next => chunks fuel (rest.take n :: done) next
        | _ => (rest.take n :: done, false)

/-- Body that comes in chunks. -/
def chunkedBody (content : Content) : Body :=
  let bs := content.toBytes.toList
  let (done, complete) := chunks (bs.length + 1) [] bs
  let joined : Content := .bytes ⟨done.reverse.flatten.toArray⟩
  if complete then .whole joined else .cut joined

/-! ## Bodies of a given length -/

/-- Longest body that can be announced. -/
def maxLength : Nat := Text.max64 - 2

/-- Length that a reply announces, all announcements agreeing; `some none` if there is no
announcement. -/
def announced? (headers : List (String × String)) : Option (Option Nat) :=
  let pieces := (headerValues headers "Content-Length").flatMap fun v =>
    (Text.splitAt ',' v.toList).map fun p => (headerValue (String.ofList p)).toList
  match pieces with
  | [] => some none
  | p :: ps =>
    match Text.ofDigits? p with
    | some n =>
      if n ≤ maxLength && ps.all fun q => Text.ofDigits? q == some n then some (some n) else none
    | none => none

/-- Body that has a length. -/
def sizedBody (n : Nat) (content : Content) : Body :=
  if content.length < n then .cut content
  else if content.length = n then .whole content
  else
    match content with
    | .zeros _ => .whole (.zeros n)
    | .bytes b => .whole (.bytes (b.extract 0 n))

/-! ## Answers -/

/-- True if the body comes in chunks: that is the last coding that is named. -/
def isChunked (codings : List String) : Bool :=
  match codings.getLast? with
  | some v =>
    match (Text.splitAt ',' v.toList).getLast? with
    | some last => sameHeader (headerValue (String.ofList last)) "chunked"
    | none => false
  | none => false

/-- True for answers that never have a body. -/
def isBodiless (method : Method) (status : Nat) : Bool :=
  method = .head || status = 101 || status = 204 || status = 304

/-- Body of a reply. -/
def Reply.body? (method : Method) (r : Reply) : Option Body :=
  let codings := headerValues r.headers "Transfer-Encoding"
  if isBodiless method r.status then some (.whole (.zeros 0))
  else if isChunked codings then some (chunkedBody r.bytes)
  else if !codings.isEmpty then some (.whole r.bytes)
  else
    match announced? r.headers with
    | none => none
    | some none => some (.whole r.bytes)
    | some (some n) => some (sizedBody n r.bytes)

/-- True for the status of a final answer. -/
def isFinal (status : Nat) : Bool := status = 101 || (200 ≤ status && status ≤ 999)

/-- Answer in a reply. -/
def Reply.answer? (method : Method) (r : Reply) : Option Answer :=
  if isFinal r.status then (r.body? method).map fun body => ⟨r.status, r.headers, body⟩ else none

/-! ## Bodies as texts -/

/-- Value between quotes, if it is quoted. -/
def unquoted : List Char → List Char
  | '"' :: v => v.takeWhile (· != '"')
  | v => v

/-- Name of a coding that a content type tells, if it can be shown. -/
def charset? (contentType : String) : Option String :=
  if isShowable contentType then
    ((Text.splitAt ';' contentType.toList).drop 1).findSome? fun parameter =>
      let name := parameter.takeWhile (· != '=')
      let value := headerValue (String.ofList (parameter.drop (name.length + 1)))
      if sameHeader (headerValue (String.ofList name)) "charset" then
        some (String.ofList (unquoted value.toList))
      else none
  else none

/-- Text of the bytes of a body in the coding that its content type tells; else in the usual one. -/
def bodyText (contentType : Option String) (bytes : ByteArray) : String :=
  let told := (contentType.bind charset?).bind Text.Coding.ofLabel?
  (told.getD .utf8).text bytes

end PinKeeper.Http
