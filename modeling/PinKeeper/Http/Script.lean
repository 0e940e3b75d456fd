import PinKeeper.Http.Client

/-!
# Http/Script — a server that answers by a script

A `Session` holds a script of routes, the files of a run, and what was asked and noted so far.  A
request takes the first route that fits it and is not used up; at any other address than that of
the server nobody answers.  Writes may be made to break off (`Session.transportUntil`).
-/

namespace PinKeeper.Http

/-- Rule of a script; what it does not name may be anything. -/
structure Route where
  method : Option String
  path : Option String
  query : Option String
  /-- How often it may still be taken. -/
  times : Option Nat
  /-- What it answers, if it answers at all. -/
  reply : Option Reply

namespace Route

/-- True if a route fits a request and is not used up. -/
def fits (r : Request) (route : Route) : Bool :=
  route.method.all (· == r.method.name) && route.path.all (· == r.url.path) &&
    route.query.all (· == r.url.query.getD "") && route.times.all (0 < ·)

/-- Reply of the first route that fits, with the routes afterwards. -/
def take (r : Request) : List Route → Option Reply × List Route
  | [] => (some (Reply.plain 404 "no route").measured, [])
  | route :: rest =>
    if route.fits r then (route.reply, { route with times := route.times.map (· - 1) } :: rest)
    else
      let (reply, rest) := take r rest
      (reply, route :: rest)

end Route

/-- Run against a scripted server. -/
structure Session where
  host : String
  port : Nat
  routes : List Route
  disk : Disk
  /-- Requests so far, the last one first. -/
  requests : List Request
  /-- Notes so far, the last one first. -/
  notes : List String

namespace Session

/-- Answers a request. -/
def exchange (r : Request) : StateM Session (Option Reply) := do
  let s ← get
  if !r.url.secure && r.url.host = s.host && r.url.port = s.port then
    let (reply, routes) := Route.take r s.routes
    set { s with routes := routes, requests := r :: s.requests }
    return reply
  else return none

/-- Writes a file, or as much of it as is written until the write breaks off. -/
def writeUntil (stop : Option Disk.Break) (path : String) (content : Content) :
    StateM Session (Except FileError Unit) := do
  let s ← get
  let (answer, disk) := s.disk.writeUntil stop path content
  set { s with disk := disk }
  return answer

/-- The transport of a session in which writes break off. -/
def transportUntil (stop : Option Disk.Break) : Transport (StateM Session) where
  exchange := exchange
  write := writeUntil stop
  log note := modify fun s => { s with notes := note :: s.notes }
  decode := bodyText

/-- The transport of a session. -/
def transport : Transport (StateM Session) := transportUntil none

end Session

end PinKeeper.Http
