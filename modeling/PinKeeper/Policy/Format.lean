import PinKeeper.Error
import PinKeeper.Policy.Document
import PinKeeper.Text.Blank
import PinKeeper.Toml.Printer
import PinKeeper.Toml.Source
import PinKeeper.Yaml.Printer
import PinKeeper.Yaml.Source

/-!
# Policy/Format — the two formats of a policy file

A `PolicyFormat` is a reader and a writer of documents.  A file is in the format of its extension;
everything but a table file is a block document.
-/

namespace PinKeeper

/-- Reader and writer of a format. -/
structure PolicyFormat where
  read : String → Option PolicyDocument
  write : PolicyDocument → Option String

namespace PolicyFormat

/-- Documents with blocks by indentation. -/
def yaml : PolicyFormat where
  read text := (Yaml.Document.parse? text).bind fun d => d.readWith PolicyDocument.read
  write d := some (Yaml.print d.outline)

/-- Documents with tables under headers. -/
def toml : PolicyFormat where
  read text := (Toml.parse? text).bind fun ms =>
    PolicyDocument.read Toml.Value.source (.table ms)
  write d := Toml.print? d.outline

/-- Reads a policy; a blank text is the policy that says nothing. -/
def parse (f : PolicyFormat) (text : String) : Except Failure Policy :=
  if (Text.trim text.toList).isEmpty then .ok Policy.default
  else
    match f.read text with
    | some d => .ok d.policy
    | none => .error (.serialization "malformed policy")

/-- Writes a policy. -/
def print (f : PolicyFormat) (p : Policy) : Except Failure String :=
  match f.write (PolicyDocument.ofPolicy p) with
  | some text => .ok text
  | none => .error (.serialization "number out of range")

end PolicyFormat

end PinKeeper
