import PinKeeper.Json.Record
import PinKeeper.Pin.Basic
import PinKeeper.Text.Decimal

/-!
# Pin/Wire — pins, peers and added entries in JSON

The cluster's versions differ in what they send, so reading is lenient: null and missing fields take
their defaults, an empty name or error is none, an identifier may be a link object, a size may be a
text, and an unknown state or an unreadable time does no harm.  Writing gives every field.  The
readers take the number of containers already open around the value, which counts against the
nesting that a link object may have.
-/

namespace PinKeeper

open Json

namespace PinState

def toJson (s : PinState) : Json := .text s.name

/-- Reads a state: its name, or an object with the name as its only key and null as the value. -/
def ofJson? : Json → Option PinState
  | .text s => some (ofName s)
  | .object [(s, .null)] => some (ofName s)
  | _ => none

end PinState

/-! ## Lenient fields -/

/-- Reads a text or null; the empty text counts as null. -/
def filledText? (v : Json) : Option (Option String) := (nullable asText v).map nonEmpty?

/-- Reads null as the default. -/
def nullOr (default : α) (read : Json → Option α) (v : Json) : Option α :=
  (nullable read v).map (·.getD default)

/-- Reads an identifier: a text, an object with the text under the key `/`, or null. -/
def cid? (opened : Nat) : Json → Option String
  | .null => some ""
  | .text s => some s
  | .object ms =>
    if fits (maxNesting - opened) (.object ms) then
      match slot ["/"] ms with
      | some (some (.text s)) => some s
      | _ => none
    else none
  | _ => none

/-- Reads a size: a number, a text that counts as zero unless it is a number, or null. -/
def size? : Json → Option Nat
  | .null => some 0
  | .text s => some ((Text.natural? Text.max64 s).getD 0)
  | v => asNat Text.max64 v

/-- Reads a time: a text, which counts as none unless it is in interchange form, or null. -/
def instant? (v : Json) : Option (Option Time.Instant) :=
  (nullable asText v).map fun t => t.bind Time.strict?

/-- Reads a whole number of 32 bits or null. -/
def factor? (v : Json) : Option (Option Int) := nullable (asInt (-2147483648) 2147483647) v

/-! ## Records -/

namespace PeerStatus

def toJson (s : PeerStatus) : Json :=
  .object [("peername", .text s.peername), ("status", s.state.toJson),
    ("error", optionalText s.error)]

def ofJson? (v : Json) : Option PeerStatus := do
  match ← slots [["peername"], ["status"], ["error"]] v with
  | [peername, state, error] =>
    some {
      peername := ← orDefault "" asText peername
      state := ← orDefault .unknown PinState.ofJson? state
      error := ← orDefault none filledText? error }
  | _ => none

end PeerStatus

namespace Pin

def toJson (p : Pin) : Json :=
  let factor : Option Int → Json := fun
    | some n => .int n
    | none => .null
  .object [
    ("cid", .text p.cid),
    ("name", optionalText p.name),
    ("allocations", texts p.allocations),
    ("metadata", .object (p.metadata.entries.map fun e => (e.1, .text e.2))),
    ("replication_factor_min", factor p.replicationMin),
    ("replication_factor_max", factor p.replicationMax),
    ("peer_map", .object (p.peerMap.entries.map fun e => (e.1, e.2.toJson))),
    ("created", optionalText (p.created.map (·.text)))]

def ofJson? (opened : Nat) (v : Json) : Option Pin := do
  match ← slots [["cid"], ["name"], ["allocations"], ["metadata"], ["replication_factor_min"],
      ["replication_factor_max"], ["peer_map"], ["created"]] v with
  | [cid, name, allocations, metadata, least, most, peerMap, created] =>
    some {
      cid := ← orDefault "" (cid? (opened + 1)) cid
      name := ← orDefault none filledText? name
      allocations := ← orDefault [] (nullOr [] (asList asText)) allocations
      metadata := ← orDefault ∅ (nullOr ∅ (asDict asText)) metadata
      replicationMin := ← orDefault none factor? least
      replicationMax := ← orDefault none factor? most
      peerMap := ← orDefault ∅ (nullOr ∅ (asDict PeerStatus.ofJson?)) peerMap
      created := ← orDefault none instant? created }
  | _ => none

end Pin

namespace Peer

def toJson (p : Peer) : Json :=
  .object [("name", .text p.name), ("peer_id", .text p.peerId), ("addresses", texts p.addresses),
    ("error", optionalText p.error)]

def ofJson? (v : Json) : Option Peer := do
  match ← slots [["name", "peername"], ["peer_id", "id"], ["addresses"], ["error"]] v with
  | [name, peerId, addresses, error] =>
    some {
      name := ← orDefault "" asText name
      peerId := ← orDefault "" asText peerId
      addresses := ← orDefault [] (nullOr [] (asList asText)) addresses
      error := ← orDefault none filledText? error }
  | _ => none

end Peer

namespace AddedEntry

def toJson (e : AddedEntry) : Json :=
  .object [("name", .text e.name), ("cid", .text e.cid), ("size", count e.size)]

def ofJson? (opened : Nat) (v : Json) : Option AddedEntry := do
  match ← slots [["name"], ["cid"], ["size"]] v with
  | [name, cid, size] =>
    some {
      name := ← orDefault "" asText name
      cid := ← orDefault "" (cid? (opened + 1)) cid
      size := ← orDefault 0 size? size }
  | _ => none

end AddedEntry

end PinKeeper
