import PinKeeper.Source
import PinKeeper.Yaml.Node
import PinKeeper.Yaml.Resolve

/-!
# Yaml/Source — values of a document by the kind that is asked for

A text is any scalar, whatever it would mean without quotes; a number has to be unquoted; null, in
any spelling, and an empty plain scalar are no value.  Two bounds keep a small text from standing
for a huge value: collections nest at most `maxDepth` deep, and aliases are followed at most
`maxAliases` times for each element of the document.
-/

namespace PinKeeper.Yaml

/-- Node of a document and the number of collections that may still be opened at it. -/
structure Place where
  room : Nat
  node : Node

/-- Step of reading, with the number of aliases that may still be followed. -/
abbrev Step := StateT Nat Option

/-- Depth to which collections may nest. -/
def maxDepth : Nat := 128

/-- Aliases that may be followed for each element of a document. -/
def maxAliases : Nat := 100

/-- Name of a tag of the core kinds. -/
def coreTag (name : String) : String := "tag:yaml.org,2002:" ++ name

namespace Document

variable (doc : Document)

/-- Follows an alias. -/
def follow : Node → Step Node
  | .alias id => do
    match ← get with
    | 0 => failure
    | left + 1 => do
      set left
      liftM (doc.anchored.lookup id)
  | n => return n

/-- Reads a scalar as a text. -/
def text (p : Place) : Step String := do
  match ← doc.follow p.node with
  | .scalar s _ _ => return s
  | _ => failure

/-- Reads a number: an unquoted scalar, or a literal one with the tag of whole numbers. -/
def natural (max : Nat) (p : Place) : Step Nat := do
  match ← doc.follow p.node with
  | .scalar s style tag =>
    if style = .plain || (style = .literal && tag == some (coreTag "int")) then
      match natural? s with
      | some n => if n ≤ max then return n else failure
      | none => failure
    else failure
  | _ => failure

/-- Tells a value from null. -/
def optional (p : Place) : Step (Option Place) := do
  let n ← doc.follow p.node
  let it := some { p with node := n }
  match n with
  | .nothing => return none
  | .scalar s .plain (some tag) =>
    if tag = coreTag "null" then (if isNull s then return none else failure) else return it
  | .scalar s .plain none => return if s.isEmpty || isNull s then none else it
  | _ => return it

/-- Reads a mapping with texts as keys; an empty plain scalar counts as an empty one. -/
def entries (p : Place) : Step (List (String × Place)) := do
  match ← doc.follow p.node, p.room with
  | .mapping members _, room + 1 =>
    members.mapM fun (k, v) => do return (← doc.text ⟨room, k⟩, ⟨room, v⟩)
  | .scalar "" .plain _, _ => return []
  | .nothing, _ => return []
  | _, _ => failure

/-- Reads a record. -/
def fields (names : List String) (p : Place) : Step (List (Option Place)) := do
  let members ← doc.entries p
  liftM (names.mapM (Source.slot? members))

/-- Value of a meaning, where one that no number can hold is an error. -/
def looseOf (s : String) : Meaning → Step Loose
  | .null => return .null
  | .natural n => return .natural n
  | .text => return .text s
  | .tooLarge => failure
  | _ => return .other

/-- Reads a scalar by its meaning.  A tag of a core kind asks for that kind, one of the document's
own is an error, and any other makes a text. -/
def looseScalar (s : String) (style : Style) : Option String → Step Loose
  | some tag =>
    if tag.toList.head? == some '!' then failure
    else if tag = coreTag "bool" then (if (truth? s).isSome then return .other else failure)
    else if tag = coreTag "int" then
      match whole? s with
      | some m => looseOf s m
      | none => failure
    else if tag = coreTag "float" then (if isFloat s then return .other else failure)
    else if tag = coreTag "null" then (if isNull s then return .null else failure)
    else return .text s
  | none => if style = .plain then looseOf s (meaning s) else return .text s

/-- True for a tag of the document's own. -/
def isLocal (tag : Option String) : Bool := tag.any fun t => t.toList.head? == some '!'

/-- Reads a node by its meaning, to the depth of the room that is left. -/
def loose : Nat → Node → Step Loose
  | 0, n => do
    match ← doc.follow n with
    | .scalar s style tag => looseScalar s style tag
    | .nothing => return .null
    | _ => failure
  | room + 1, n => do
    match ← doc.follow n with
    | .scalar s style tag => looseScalar s style tag
    | .nothing => return .null
    | .sequence items tag =>
      if isLocal tag then failure
      else
        let _ ← items.mapM (loose room)
        return .other
    | .mapping members tag =>
      if isLocal tag then failure
      else
        return .group (← members.mapM fun e => do
          return (← loose room e.1, ← loose room e.2))
    | .alias _ => failure

/-- Readers of the values of a document. -/
def source : Source Step Place where
  refuse := failure
  text := doc.text
  natural := doc.natural
  optional := doc.optional
  fields := doc.fields
  entries := doc.entries
  loose p := doc.loose p.room p.node

/-- Reads a document with a reader that is written for any source. -/
def readWith (read : Source Step Place → Place → Step α) : Option α :=
  ((read doc.source ⟨maxDepth, doc.root⟩).run (maxAliases * doc.root.size)).map (·.1)

end Document

end PinKeeper.Yaml
