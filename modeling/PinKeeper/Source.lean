import PinKeeper.Text.Decimal

/-!
# Source — how values of a file format are read

File formats differ in what counts as a text, a number or no value.  A `Source` answers these
questions for one format, in a monad in which reading may fail, so that a document is described once
for all of them.  `slot?` gives records their common rule: a member that is not known is passed
over, a known one stands at most once.
-/

namespace PinKeeper

/-- Value whose kind is not known beforehand. -/
inductive Loose where
  | null
  | natural (value : Nat)
  | text (value : String)
  | group (members : List (Loose × Loose))
  | other
deriving Repr, Inhabited

/-- Readers of the values of a file format. -/
structure Source (m : Type → Type) (V : Type) where
  /-- Refuses a value. -/
  refuse : {α : Type} → m α
  /-- Reads a text. -/
  text : V → m String
  /-- Reads a whole number of at most the given size. -/
  natural : Nat → V → m Nat
  /-- Tells a value from no value. -/
  optional : V → m (Option V)
  /-- Reads the fields of a record by their names. -/
  fields : List String → V → m (List (Option V))
  /-- Reads a dictionary. -/
  entries : V → m (List (String × V))
  /-- Reads a value of any kind. -/
  loose : V → m Loose

namespace Source

/-- Value of the one member with a name; a second such member is an error. -/
def slot? (members : List (String × α)) (name : String) : Option (Option α) :=
  match members.filter fun e => e.1 == name with
  | [] => some none
  | [e] => some (some e.2)
  | _ => none

variable {m : Type → Type} [Monad m] {V : Type}

/-- Reads a text that may be absent. -/
def optionalText (s : Source m V) : Option V → m (Option String)
  | some v => do
    match ← s.optional v with
    | some v => return some (← s.text v)
    | none => return none
  | none => return none

/-- Reads a number that has a default. -/
def naturalOr (s : Source m V) (max default : Nat) : Option V → m Nat
  | some v => s.natural max v
  | none => return default

/-- Reads the entries of a dictionary that may be absent. -/
def entriesOr (s : Source m V) : Option V → m (List (String × V))
  | some v => s.entries v
  | none => return []

end Source

end PinKeeper
