import PinKeeper.Text.Decimal
import PinKeeper.Web.Form

/-!
# Web/Url — addresses of web resources

Reading an address forgives much: white space around it and line breaks within it are dropped,
backslashes count as slashes, the host may be written with escapes or as a number, and the path is
freed of dot segments and escaped where it has to be.  The part after a number sign never leaves
this program and is not kept.

An address is read on its own (`Url.parse`) or against another one, as a redirection does
(`Url.join`).  Host names have to be ASCII.
-/

namespace PinKeeper.Web

/-- Why a text is no address that can be asked. -/
inductive UrlError where
  | malformed
  /-- An address, but of no web resource. -/
  | foreign
deriving DecidableEq, Repr

/-- Address of a web resource. -/
structure Url where
  /-- Asks for an encrypted connection. -/
  secure : Bool
  /-- User name and password that stand in the address. -/
  user : Option (String × Option String)
  host : String
  port : Nat
  /-- Path as it is sent, which starts with a slash. -/
  path : String
  /-- What follows the question mark, as it is sent. -/
  query : Option String
deriving DecidableEq, Repr

namespace Url

/-! ## Hosts -/

/-- Number as a part of a numeric host: with `0x` in front in base 16, with `0` in base 8. -/
def hostNumber? (cs : List Char) : Option Nat :=
  let value (base : Nat) (ds : List Char) : Option Nat :=
    ds.foldl (fun n? c =>
      match n?, Text.hexValue? c with
      | some n, some d => if d < base then some (n * base + d) else none
      | _, _ => none) (some 0)
  match cs with
  | [] => none
  | '0' :: x :: rest => if x = 'x' || x = 'X' then value 16 rest else value 8 (x :: rest)
  | cs => value 10 cs

/-- Number of a host with the given numeric parts: each is a byte, and the last fills the rest. -/
def combined? : List Nat → Option Nat
  | [a] => if a < 4294967296 then some a else none
  | [a, b] => if a < 256 && b < 16777216 then some (a * 16777216 + b) else none
  | [a, b, c] =>
    if a < 256 && b < 256 && c < 65536 then some (a * 16777216 + b * 65536 + c) else none
  | [a, b, c, d] =>
    if a < 256 && b < 256 && c < 256 && d < 256 then
      some (a * 16777216 + b * 65536 + c * 256 + d)
    else none
  | _ => none

/-- Four bytes with points between them. -/
def dotted (n : Nat) : String :=
  Text.joined "." ([n / 16777216, n / 65536 % 256, n / 256 % 256, n % 256].map Text.natural)

/-- Parts of a host name; a point at the end counts for nothing. -/
def labels (cs : List Char) : List (List Char) :=
  let ls := Text.splitAt '.' cs
  if ls.length > 1 && ls.getLast? == some [] then ls.dropLast else ls

/-- True if the last part of a host name is a number, so that the host is one. -/
def isNumeric (cs : List Char) : Bool :=
  match (labels cs).getLast? with
  | some l => (!l.isEmpty && l.all Char.isDigit) || (hostNumber? l).isSome
  | none => false

/-- Characters that no host name has. -/
def isForbiddenInHost (c : Char) : Bool :=
  c.toNat ≤ 0x20 || 0x7F ≤ c.toNat || "#/:<>?@[\\]^|%".toList.contains c

/-- Host in the form in which hosts are compared. -/
def host? (cs : List Char) : Option String :=
  match cs with
  | '[' :: rest =>
    if rest.getLast? == some ']' &&
        rest.dropLast.all fun c => (Text.hexValue? c).isSome || c == ':' || c == '.' then
      some (String.ofList (cs.map Char.toLower))
    else none
  | _ =>
    match Percent.decoded? cs with
    | none => none
    | some s =>
      let name := s.toList.map Char.toLower
      if name.isEmpty || name.any isForbiddenInHost then none
      else if isNumeric name then ((labels name).mapM hostNumber?).bind combined? |>.map dotted
      else some (String.ofList name)

/-! ## The parts before the path -/

/-- Port where the address names none. -/
def defaultPort (secure : Bool) : Nat := if secure then 443 else 80

/-- Port: a colon with digits, which may be missing. -/
def port? (secure : Bool) : List Char → Option Nat
  | [] => some (defaultPort secure)
  | ':' :: ds =>
    if ds.isEmpty then some (defaultPort secure)
    else (Text.ofDigits? ds).filter (· ≤ Text.max16)
  | _ => none

/-- Splits at the last at-sign. -/
def splitUser (cs : List Char) : Option (List Char) × List Char :=
  let back := cs.reverse
  match (back.dropWhile (· != '@')) with
  | [] => (none, cs)
  | _ :: user => (some user.reverse, (back.takeWhile (· != '@')).reverse)

/-- User name and password before the at-sign. -/
def user? (cs : List Char) : Option (String × Option String) :=
  let name := Percent.decoded? (cs.takeWhile (· != ':'))
  let password := (cs.dropWhile (· != ':')).drop 1
  match name with
  | none => none
  | some name =>
    if password.isEmpty then if name.isEmpty then none else some (name, none)
    else some (name, Percent.decoded? password)

/-- Splits a host from the port, past a pair of brackets. -/
def splitPort (cs : List Char) : List Char × List Char :=
  let inBrackets := if cs.head? == some '[' then cs.takeWhile (· != ']') else []
  let after := cs.drop inBrackets.length
  (inBrackets ++ after.takeWhile (· != ':'), after.dropWhile (· != ':'))

/-! ## Path and query -/

def isSlash (c : Char) : Bool := c = '/' || c = '\\'

/-- Characters of a path that stand for themselves. -/
def isPlainInPath (c : Char) : Bool :=
  0x20 < c.toNat && c.toNat < 0x7F && !"\"#<>?\x60\x7b\x7d".toList.contains c

/-- Characters of a query that stand for themselves. -/
def isPlainInQuery (c : Char) : Bool :=
  0x20 < c.toNat && c.toNat < 0x7F && !"\"#<>'".toList.contains c

/-- Segment with points in place of their escapes, to tell the dot segments. -/
def unescapedDots : List Char → List Char
  | '%' :: '2' :: e :: rest =>
    if e = 'e' || e = 'E' then '.' :: unescapedDots rest
    else '%' :: '2' :: e :: unescapedDots rest
  | c :: rest => c :: unescapedDots rest
  | [] => []

/-- True for a letter with a colon or a bar, which paths do not climb out of. -/
def isDrive : List Char → Bool
  | [c, d] => c.isAlpha && (d = ':' || d = '|')
  | _ => false

/-- Drops the last of the segments, which are given backwards, unless it is a drive. -/
def climb : List (List Char) → List (List Char)
  | [] => []
  | s :: ss => if isDrive s then s :: ss else ss

/-- Takes segments over into a path without dot segments; `done` is given backwards. -/
def resolve : (done : List (List Char)) → List (List Char) → List (List Char)
  | done, [] => done.reverse
  | done, [s] =>
    if unescapedDots s = ['.', '.'] then (climb done).reverse ++ [[]]
    else if unescapedDots s = ['.'] then done.reverse ++ [[]]
    else done.reverse ++ [s]
  | done, s :: ss =>
    if unescapedDots s = ['.', '.'] then resolve (climb done) ss
    else if unescapedDots s = ['.'] then resolve done ss
    else resolve (s :: done) ss

/-- Path with the given segments. -/
def pathOf (segments : List (List Char)) : String :=
  String.ofList (segments.flatMap fun s => '/' :: s)

/-- Segments of a written path, escaped where they have to be. -/
def segments (cs : List Char) : List (List Char) :=
  (Text.splitAt '/' (cs.map fun c => if isSlash c then '/' else c)).map fun s =>
    Percent.encode isPlainInPath (String.ofList s)

/-- Query and the number sign with what follows it, taken off the end of an address. -/
def queryOf (cs : List Char) : Option String :=
  match cs.takeWhile (· != '#') with
  | '?' :: q => some (String.ofList (Percent.encode isPlainInQuery (String.ofList q)))
  | _ => none

/-- Splits a path from the query. -/
def splitPath (cs : List Char) : List Char × List Char :=
  let isPath (c : Char) : Bool := c != '?' && c != '#'
  (cs.takeWhile isPath, cs.dropWhile isPath)

/-! ## Reading addresses -/

/-- Drops control characters and spaces at both ends and line breaks and tabs everywhere. -/
def clean (s : String) : List Char :=
  let isEdge (c : Char) : Bool := c.toNat ≤ 0x20
  ((s.toList.dropWhile isEdge).reverse.dropWhile isEdge).reverse.filter fun c =>
    c != '\t' && c != '\n' && c != '\r'

/-- Splits the scheme, in lower case, from what follows the colon. -/
def scheme? (cs : List Char) : Option (String × List Char) :=
  let isPart (c : Char) : Bool := c.isAlphanum || c == '+' || c == '-' || c == '.'
  match cs.head?, cs.dropWhile isPart with
  | some c, ':' :: rest =>
    if c.isAlpha then some (String.ofList ((cs.takeWhile isPart).map Char.toLower), rest) else none
  | _, _ => none

/-- Address from the host on. -/
def ofAuthority (secure : Bool) (cs : List Char) : Except UrlError Url :=
  let isAuthority (c : Char) : Bool := !isSlash c && c != '?' && c != '#'
  let (user, site) := splitUser (cs.takeWhile isAuthority)
  let (host, port) := splitPort site
  let (path, rest) := splitPath (cs.dropWhile isAuthority)
  match host? host, port? secure port with
  | some host, some port =>
    .ok ⟨secure, user.bind user?, host, port, pathOf (resolve [] (segments (path.drop 1))),
      queryOf rest⟩
  | _, _ => .error .malformed

/-- Segments of a path as it is sent. -/
def sentSegments (path : String) : List (List Char) := Text.splitAt '/' (path.toList.drop 1)

/-- Address relative to another one. -/
def relative (base : Url) (cs : List Char) : Except UrlError Url :=
  let (path, rest) := splitPath cs
  match path with
  | [] => .ok { base with query := if rest.head? == some '?' then queryOf rest else base.query }
  | '/' :: '/' :: _ => ofAuthority base.secure (cs.drop 2)
  | c :: d :: _ =>
    if isSlash c && isSlash d then ofAuthority base.secure (cs.dropWhile isSlash)
    else .ok (below path rest)
  | _ => .ok (below path rest)
where
  /-- Address with another path, which starts at the root or beside the last segment. -/
  below (path rest : List Char) : Url :=
    let (done, path) : List (List Char) × List Char :=
      match path with
      | c :: cs => if isSlash c then ([], cs) else ((sentSegments base.path).dropLast.reverse, path)
      | [] => ([], path)
    { base with path := pathOf (resolve done (segments path)), query := queryOf rest }

/-- Reads an address against another one. -/
def join (base : Url) (s : String) : Except UrlError Url :=
  let cs := clean s
  match scheme? cs with
  | none => relative base cs
  | some (scheme, rest) =>
    if scheme = "http" || scheme = "https" then
      let secure := scheme = "https"
      if secure = base.secure && (rest.takeWhile isSlash).length < 2 then relative base rest
      else ofAuthority secure (rest.dropWhile isSlash)
    else .error .foreign

/-- Reads an address. -/
def parse (s : String) : Except UrlError Url :=
  match scheme? (clean s) with
  | none => .error .malformed
  | some (scheme, rest) =>
    if scheme = "http" || scheme = "https" then
      ofAuthority (scheme = "https") (rest.dropWhile isSlash)
    else .error .foreign

/-! ## Using addresses -/

/-- Adds parameters to the query; without any, the address stays as it is. -/
def withParameters (u : Url) (ps : List (String × String)) : Url :=
  if ps.isEmpty then u
  else
    let old := (u.query.getD "").toList
    let new := Form.encode ps
    { u with query := some (String.ofList (if old.isEmpty then new else old ++ '&' :: new)) }

/-- What is asked of the host: path and query. -/
def target (u : Url) : String :=
  match u.query with
  | some q => u.path ++ "?" ++ q
  | none => u.path

/-- True if two addresses lead to one server. -/
def sameServer (u v : Url) : Bool := u.host = v.host && u.port = v.port

end Url

end PinKeeper.Web
