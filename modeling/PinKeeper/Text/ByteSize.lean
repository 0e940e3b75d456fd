import PinKeeper.Text.Decimal
import PinKeeper.Text.Rounding

/-!
# Text/ByteSize — byte counts in decimal units

A count below a thousand is written in bytes; a larger one in the largest unit that it reaches, with
two places.  The quotient is taken in double precision before it is rounded to two places, so a
count halfway between two hundredths may go either way.
-/

namespace PinKeeper.Text

/-- Units with their sizes, largest first. -/
def byteUnits : List (String × Nat) :=
  [("TB", 1000000000000), ("GB", 1000000000), ("MB", 1000000), ("KB", 1000)]

/-- Count in a unit, with two places. -/
def inUnit (bytes : Nat) (name : String) (unit : Nat) : String :=
  let count := Ratio.significant ⟨bytes, 1⟩
  let places := ((Ratio.mk count.num (count.den * unit)).significant).fixed 2
  natural places.1 ++ "." ++ zeroPadded 2 places.2 ++ " " ++ name

/-- Text of a byte count. -/
def byteSize (bytes : Nat) : String :=
  match byteUnits.find? (fun u => u.2 ≤ bytes) with
  | some (name, unit) => inUnit bytes name unit
  | none => natural bytes ++ " bytes"

end PinKeeper.Text
