import PinKeeper.Text.Blank

/-!
# Command/HostName — host names on the command line

A host name is letters, digits, points and hyphens, and starts with a letter or a digit.  What looks
like a flag gets a message of its own, because it is most likely a flag whose value was forgotten.
-/

namespace PinKeeper.Command

/-- Why a text is no host name. -/
inductive HostError where
  | flag (text : String)
  | invalid (text : String)
deriving DecidableEq, Repr

def HostError.message : HostError → String
  | .flag text => "'" ++ text ++ "' looks like a flag, not a hostname"
  | .invalid text => "'" ++ text ++ "' is not a valid hostname (letters, digits, '.' and '-')"

/-- Character of a host name. -/
def isHostChar (c : Char) : Bool := c.isAlphanum || c = '.' || c = '-'

/-- Reads a host name. -/
def hostName (s : String) : Except HostError String :=
  match s.toList with
  | '-' :: '-' :: _ => .error (.flag s)
  | c :: cs => if c.isAlphanum && cs.all isHostChar then .ok s else .error (.invalid s)
  | [] => .error (.invalid s)

end PinKeeper.Command
