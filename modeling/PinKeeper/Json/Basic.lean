/-!
# Json/Basic — JSON values as they are written

A `Json` is the syntax tree of a JSON text: an object is the list of its members in the order in
which they stand, repeated keys included, because what a repetition means is for the reader of the
value to say.  Whole numbers are exact; a number with a fraction or an exponent keeps its text.

Some literals are well-formed and still denote nothing: a string with half of a surrogate pair, an
object with such a key, a number beyond every finite magnitude.  They are `unreadable`: a value of
that kind can be skipped and not read.
-/

namespace PinKeeper

/-- Syntax tree of a JSON text. -/
inductive Json where
  | null
  | bool (value : Bool)
  | int (value : Int)
  | decimal (written : String)
  | text (value : String)
  | unreadable
  | array (items : List Json)
  | object (members : List (String × Json))
deriving Repr, Inhabited

namespace Json

/-! ## What can be buffered

A value whose shape is not known beforehand is read whole before it is looked at.  That needs every
literal in it to be readable and its nesting to stay within bounds. -/

mutual

/-- True if the value has no unreadable literal and nests at most `room` containers deep. -/
def fits (room : Nat) : Json → Bool
  | .unreadable => false
  | .array items => match room with
    | 0 => false
    | room + 1 => allFit room items
  | .object members => match room with
    | 0 => false
    | room + 1 => membersFit room members
  | _ => true

/-- Applies `fits` to the items of an array. -/
def allFit (room : Nat) : List Json → Bool
  | [] => true
  | v :: vs => fits room v && allFit room vs

/-- Applies `fits` to the values of an object. -/
def membersFit (room : Nat) : List (String × Json) → Bool
  | [] => true
  | (_, v) :: ms => fits room v && membersFit room ms

end

/-- Containers that may be open at one time in a value of unknown shape. -/
def maxNesting : Nat := 127

/-! ## Building values -/

/-- Text, or null where there is none. -/
def optionalText : Option String → Json
  | some s => .text s
  | none => .null

/-- Array of texts. -/
def texts (ss : List String) : Json := .array (ss.map .text)

/-- Count as a number. -/
def count (n : Nat) : Json := .int n

end Json

end PinKeeper
