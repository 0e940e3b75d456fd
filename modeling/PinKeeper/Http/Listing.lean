import PinKeeper.Json.Reader
import PinKeeper.Json.Record
import PinKeeper.Text.Blank

/-!
# Http/Listing — lists of values in a body

A list comes as one array or as values on lines of their own, and which of the two the first
character tells.  Blank lines count for nothing and an empty body is the empty list.  Either all
values are read or none.
-/

namespace PinKeeper.Http

/-- Lines that are not blank, without the blanks around them. -/
def filledLines (cs : List Char) : List (List Char) :=
  ((Text.lines cs).map Text.trim).filter fun line => !line.isEmpty

/-- Reads a list; `read` is told how many containers are open around a value. -/
def listing? (read : (opened : Nat) → Json → Option α) (body : String) : Option (List α) :=
  let cs := Text.trim body.toList
  if cs.head? == some '[' then (Json.parse? (String.ofList cs)).bind (Json.asList (read 1))
  else (filledLines cs).mapM fun line => (Json.parse? (String.ofList line)).bind (read 0)

end PinKeeper.Http
