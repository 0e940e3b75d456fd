/-!
# Text/Column — cells of a table: padding and eliding

Widths count code points.  A cell that is longer than its column is written in full unless it is
elided first.
-/

namespace PinKeeper.Text

/-- Pads with spaces on the right up to a width. -/
def padRight (width : Nat) (s : String) : String :=
  s ++ String.ofList (List.replicate (width - s.length) ' ')

/-- Pads with spaces on the left up to a width. -/
def padLeft (width : Nat) (s : String) : String :=
  String.ofList (List.replicate (width - s.length) ' ') ++ s

/-- Text of at most `width` characters: a longer one loses its end, and three dots mark the
loss. -/
def elide (width : Nat) (s : String) : String :=
  if s.length ≤ width then s else String.ofList (s.toList.take (width - 3)) ++ "..."

/-- First characters of a text. -/
def firstChars (n : Nat) (s : String) : String := String.ofList (s.toList.take n)

end PinKeeper.Text
