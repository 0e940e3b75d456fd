import PinKeeper.Dict
import PinKeeper.Json.Basic

/-!
# Json/Record — reading typed values out of JSON

A reader is a function `Json → Option α`: `none` means that the value has the wrong shape.  A
record may be written as an object or as an array of its fields in order.  `slots` brings both to
one form, the list of the values of the fields, absent ones marked: an unknown member is passed
over, a field given twice is refused, whichever of its names is used, and so is an array with more
items than fields.
-/

namespace PinKeeper.Json

/-! ## Plain values -/

def asText : Json → Option String
  | .text s => some s
  | _ => none

def asBool : Json → Option Bool
  | .bool b => some b
  | _ => none

/-- Whole number between two bounds. -/
def asInt (low high : Int) : Json → Option Int
  | .int i => if low ≤ i && i ≤ high then some i else none
  | _ => none

/-- Whole number from zero to `max`. -/
def asNat (max : Nat) : Json → Option Nat
  | .int i => if 0 ≤ i && i ≤ max then some i.toNat else none
  | _ => none

/-- Null, or what the reader accepts. -/
def nullable (read : Json → Option α) : Json → Option (Option α)
  | .null => some none
  | v => (read v).map some

/-- Array whose items the reader accepts. -/
def asList (read : Json → Option α) : Json → Option (List α)
  | .array vs => vs.mapM read
  | _ => none

/-- Object whose values the reader accepts; of members with one key the last stays. -/
def asDict (read : Json → Option α) : Json → Option (Dict α)
  | .object ms => (ms.mapM fun m => (read m.2).map fun v => (m.1, v)).map Dict.ofList
  | _ => none

/-! ## Records -/

/-- Value of the member that goes by one of the names; a second such member is an error. -/
def slot (names : List String) (members : List (String × Json)) : Option (Option Json) :=
  match members.filter fun m => names.contains m.1 with
  | [] => some none
  | [m] => some (some m.2)
  | _ => none

/-- Values of the fields of a record, each field given by the names it goes by. -/
def slots (fields : List (List String)) : Json → Option (List (Option Json))
  | .object ms => fields.mapM fun names => slot names ms
  | .array vs =>
    if vs.length ≤ fields.length then
      some (vs.map some ++ List.replicate (fields.length - vs.length) none)
    else none
  | _ => none

/-- Reads a field that may be absent. -/
def orDefault (default : α) (read : Json → Option α) : Option Json → Option α
  | some v => read v
  | none => some default

/-- Reads a field that must be there. -/
def required (read : Json → Option α) : Option Json → Option α
  | some v => read v
  | none => none

end PinKeeper.Json
