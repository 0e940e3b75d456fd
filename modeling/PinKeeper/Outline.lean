/-!
# Outline — a document of named texts, numbers and groups

What a settings file says, before it is decided how it is written: the writers of the file formats
take an outline, and keep the order of its members.
-/

namespace PinKeeper

/-- Text, number, or group of named members. -/
inductive Outline where
  | text (value : String)
  | number (value : Nat)
  | group (members : List (String × Outline))
deriving Repr, Inhabited

namespace Outline

/-- True for a group. -/
def isGroup : Outline → Bool
  | .group _ => true
  | _ => false

/-- Member that is left out where there is no value. -/
def optional (name : String) : Option String → List (String × Outline)
  | some s => [(name, .text s)]
  | none => []

/-- Group that is left out where it is empty. -/
def groupUnlessEmpty (name : String) (members : List (String × Outline)) :
    List (String × Outline) :=
  if members.isEmpty then [] else [(name, .group members)]

end Outline

end PinKeeper
