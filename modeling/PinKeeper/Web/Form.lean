import PinKeeper.Text.Blank
import PinKeeper.Web.Percent

/-!
# Web/Form — parameters in the query of an address

Parameters are pairs of a name and a value, `name=value`, with ampersands between them.  Letters,
digits and four marks stand for themselves, a space is written as a plus sign and every other byte
as an escape.  So neither a name nor a value can contain what separates them.
-/

namespace PinKeeper.Web.Form

/-- Characters that stand for themselves. -/
def isPlain (c : Char) : Bool :=
  c.isAlphanum || c == '*' || c == '-' || c == '.' || c == '_'

/-- Writes a byte. -/
def encodeByte (b : UInt8) : List Char :=
  if b.toNat = 0x20 then ['+'] else Percent.encodeByte isPlain b

/-- Writes a name or a value. -/
def component (s : String) : List Char := s.toUTF8.toList.flatMap encodeByte

/-- Writes a parameter. -/
def parameter (p : String × String) : List Char := component p.1 ++ '=' :: component p.2

/-- Writes parameters. -/
def encode : List (String × String) → List Char
  | [] => []
  | [p] => parameter p
  | p :: ps => parameter p ++ '&' :: encode ps

/-- Bytes of a name or a value as it is written. -/
def bytes (cs : List Char) : List UInt8 :=
  Percent.decode (cs.map fun c => if c = '+' then ' ' else c)

/-- Reads a parameter: the name ends at the first equals sign. -/
def parameter? (cs : List Char) : Option (String × String) :=
  let name := cs.takeWhile (· != '=')
  let value := (cs.dropWhile (· != '=')).drop 1
  match Text.decoded? ⟨(bytes name).toArray⟩, Text.decoded? ⟨(bytes value).toArray⟩ with
  | some n, some v => some (n, v)
  | _, _ => none

/-- Reads parameters; empty pieces between ampersands count for nothing. -/
def decode? (cs : List Char) : Option (List (String × String)) :=
  ((Text.splitAt '&' cs).filter fun piece => !piece.isEmpty).mapM parameter?

end PinKeeper.Web.Form
