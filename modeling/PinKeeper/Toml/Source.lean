import PinKeeper.Source
import PinKeeper.Toml.Value

/-!
# Toml/Source — values of a table by the kind that is asked for

Every value has one kind, so reading is strict: a text is a string, a number an integer.  There is
no null.  A record may also be written as an array of its fields in order, and a date counts as a
record with the written date as its one member.
-/

namespace PinKeeper.Toml

namespace Value

/-- Name of the one member of a date. -/
def timeKey : String := "$__toml_private_datetime"

/-- Members of a table or a date. -/
def entries : Value → Option (List (String × Value))
  | .table ms => some ms
  | .time t => some [(timeKey, .text t)]
  | _ => none

/-- Fields of a record, absent ones marked; further items of an array are passed over. -/
def fields (names : List String) : Value → Option (List (Option Value))
  | .array vs =>
    let vs := vs.take names.length
    some (vs.map some ++ List.replicate (names.length - vs.length) none)
  | v => do names.mapM (Source.slot? (← entries v))

mutual

/-- Value by its kind. -/
def loose : Value → Loose
  | .text s => .text s
  | .integer i => if 0 ≤ i then .natural i.toNat else .other
  | .table ms => .group (looseMembers ms)
  | .time t => .group [(.text timeKey, .text t)]
  | _ => .other

/-- Members by their kinds. -/
def looseMembers : List (String × Value) → List (Loose × Loose)
  | [] => []
  | (k, v) :: ms => (.text k, loose v) :: looseMembers ms

end

/-- Readers of the values of a table. -/
def source : Source Option Value where
  refuse := none
  text
    | .text s => some s
    | _ => none
  natural max
    | .integer i => if 0 ≤ i && i ≤ max then some i.toNat else none
    | _ => none
  optional v := some (some v)
  fields := fields
  entries := entries
  loose v := some v.loose

end Value

end PinKeeper.Toml
