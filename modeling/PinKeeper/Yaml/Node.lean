import PinKeeper.Dict
import PinKeeper.Yaml.Token

/-!
# Yaml/Node — the tree of a document

`Document.ofTokens?` reads the one document of a text.  A node that an anchor names is kept in the
table of the document, and an alias is a leaf that points into it, so a tree is finite even where an
alias stands inside of the node that it names.  What an alias means is looked up when the document
is complete.
-/

namespace PinKeeper.Yaml

/-- Tree of a document.  A scalar that is left out is an empty plain one. -/
inductive Node where
  | scalar (text : String) (style : Style) (tag : Option String)
  | sequence (items : List Node) (tag : Option String)
  | mapping (members : List (Node × Node)) (tag : Option String)
  | alias (id : Nat)
  | nothing
deriving Repr, Inhabited

namespace Node

/-- Node of a scalar that is left out. -/
def omitted : Node := .scalar "" .plain none

mutual

/-- Number of the elements of a tree, where a collection has a start and an end. -/
def size : Node → Nat
  | .sequence items _ => 2 + sizeAll items
  | .mapping members _ => 2 + sizeMembers members
  | _ => 1

/-- Number of the elements of several trees. -/
def sizeAll : List Node → Nat
  | [] => 0
  | n :: ns => size n + sizeAll ns

/-- Number of the elements of the keys and the values. -/
def sizeMembers : List (Node × Node) → Nat
  | [] => 0
  | (k, v) :: ms => size k + size v + sizeMembers ms

end

end Node

/-- Document: its tree, and the nodes that aliases point to, by the number of the anchor. -/
structure Document where
  root : Node
  anchored : List (Nat × Node)

/-! ## Anchors -/

/-- Anchors met so far.  `ids` gives each name its number, `owner` the serial of the node that has a
number, the latest first, and `bodies` the nodes that are complete by their serials. -/
structure Anchors where
  ids : Dict Nat
  owner : List (Nat × Nat)
  serial : Nat
  bodies : List (Nat × Node)

namespace Anchors

def none : Anchors := ⟨∅, [], 0, []⟩

/-- Notes that a node with a name begins; the number of the name is how many names there were. -/
def name (a : Anchors) (name : String) : Anchors :=
  let id := a.ids.size
  { a with ids := a.ids.insert name id, owner := (id, a.serial) :: a.owner, serial := a.serial + 1 }

/-- Notes that the node with a serial is complete. -/
def complete (a : Anchors) (serial : Nat) (n : Node) : Anchors :=
  { a with bodies := (serial, n) :: a.bodies }

/-- The nodes by the numbers of their names. -/
def table (a : Anchors) : List (Nat × Node) :=
  a.owner.filterMap fun (id, serial) => (a.bodies.lookup serial).map fun n => (id, n)

end Anchors

/-! ## Reading the tokens -/

/-- Tokens that are left and anchors that have been met. -/
structure Reading where
  tokens : List Token
  anchors : Anchors

/-- Step of the reading of a tree. -/
abbrev Read := StateT Reading Option

namespace Read

/-- Token at hand. -/
def peek : Read (Option Token) := do
  return (← get).tokens.head?

/-- Moves over the token at hand. -/
def skip : Read Unit := modify fun s => { s with tokens := s.tokens.drop 1 }

/-- Moves over a token, if it is at hand. -/
def accept (t : Token) : Read Bool := do
  if (← peek) == some t then
    skip
    return true
  else return false

/-- True if one of the given tokens is at hand, or none. -/
def sees (ts : List Token) : Read Bool := do
  match ← peek with
  | some t => return ts.contains t
  | none => return true

end Read

/-- Prefixes that handles of tags stand for. -/
abbrev Handles := List (String × String)

/-- Prefixes that need no directive. -/
def defaultHandles : Handles := [("!", "!"), ("!!", "tag:yaml.org,2002:")]

/-- Tag from its two parts. -/
def resolveTag (handles : Handles) (handle suffix : String) : Option String :=
  if handle.isEmpty then some suffix else (handles.lookup handle).map (· ++ suffix)

/-- Reads the anchor and the tag of a node, in any order. -/
def properties (handles : Handles) : Read (Option String × Option String) := do
  let tagOf (h s : String) : Read String := liftM (resolveTag handles h s)
  match ← Read.peek with
  | some (.anchor name) =>
    Read.skip
    match ← Read.peek with
    | some (.tag h s) =>
      Read.skip
      return (some name, some (← tagOf h s))
    | _ => return (some name, none)
  | some (.tag h s) =>
    Read.skip
    match ← Read.peek with
    | some (.anchor name) =>
      Read.skip
      return (some name, some (← tagOf h s))
    | _ => return (none, some (← tagOf h s))
  | _ => return (none, none)

/-- Notes the anchor of a node while the node is read. -/
def anchoring (name : Option String) (read : Read Node) : Read Node :=
  match name with
  | some name => do
    let serial := (← get).anchors.serial
    modify fun s => { s with anchors := s.anchors.name name }
    let n ← read
    modify fun s => { s with anchors := s.anchors.complete serial n }
    return n
  | none => read

mutual

/-- Reads a node.  `block` allows block collections, and `dashes` a sequence that is not deeper than
the key it belongs to. -/
def node (handles : Handles) : Nat → (block dashes : Bool) → Read Node
  | 0, _, _ => failure
  | fuel + 1, block, dashes => do
    match ← Read.peek with
    | some (.alias name) =>
      Read.skip
      match (← get).anchors.ids.find? name with
      | some id => return .alias id
      | none => failure
    | _ =>
      let (name, tag) ← properties handles
      match ← Read.peek with
      | some (.scalar text style) =>
        Read.skip
        anchoring name (return .scalar text style (if tag == some "!" then none else tag))
      | some .entry =>
        if dashes then anchoring name (return .sequence (← dashed handles fuel) tag)
        else absent name tag
      | some .flowSequenceStart =>
        Read.skip
        anchoring name (return .sequence (← flowItems handles fuel true) tag)
      | some .flowMappingStart =>
        Read.skip
        anchoring name (return .mapping (← flowMembers handles fuel true) tag)
      | some .sequenceStart =>
        if block then
          Read.skip
          anchoring name (return .sequence (← blockItems handles fuel) tag)
        else absent name tag
      | some .mappingStart =>
        if block then
          Read.skip
          anchoring name (return .mapping (← blockMembers handles fuel) tag)
        else absent name tag
      | _ => absent name tag

/-- Node that consists of its properties only. -/
def absent (name tag : Option String) : Read Node :=
  if name.isNone && tag.isNone then failure
  else anchoring name (return .scalar "" .plain tag)

/-- Reads a node unless one of the given tokens says that it is left out. -/
def nodeUnless (handles : Handles) (ends : List Token) :
    Nat → (block dashes : Bool) → Read Node
  | 0, _, _ => failure
  | fuel + 1, block, dashes => do
    if ← Read.sees ends then return Node.omitted else node handles fuel block dashes

/-- Reads the entries of a block sequence. -/
def blockItems (handles : Handles) : Nat → Read (List Node)
  | 0 => failure
  | fuel + 1 => do
    if ← Read.accept .entry then
      let n ← nodeUnless handles [.entry, .blockEnd] fuel true false
      return n :: (← blockItems handles fuel)
    else if ← Read.accept .blockEnd then return []
    else failure

/-- Reads the entries of a sequence that is not deeper than its key. -/
def dashed (handles : Handles) : Nat → Read (List Node)
  | 0 => failure
  | fuel + 1 => do
    if ← Read.accept .entry then
      let n ← nodeUnless handles [.entry, .key, .value, .blockEnd] fuel true false
      return n :: (← dashed handles fuel)
    else return []

/-- Reads the members of a block mapping. -/
def blockMembers (handles : Handles) : Nat → Read (List (Node × Node))
  | 0 => failure
  | fuel + 1 => do
    let ends : List Token := [.key, .value, .blockEnd]
    if ← Read.accept .blockEnd then return []
    else
      let k ← (do
        if ← Read.accept .key then nodeUnless handles ends fuel true true else failure)
      let v ← (do
        if ← Read.accept .value then nodeUnless handles ends fuel true true
        else return Node.omitted)
      return (k, v) :: (← blockMembers handles fuel)

/-- Reads the entries of a sequence in brackets; an entry with a colon is a mapping of one
member. -/
def flowItems (handles : Handles) : Nat → (first : Bool) → Read (List Node)
  | 0, _ => failure
  | fuel + 1, first => do
    let ends : List Token := [.flowEntry, .flowSequenceEnd]
    if ← Read.accept .flowSequenceEnd then return []
    else
      if !first then
        if !(← Read.accept .flowEntry) then failure
      if ← Read.accept .key then
        let k ← (do
          if ← Read.sees (.value :: ends) then
            Read.skip
            return Node.omitted
          else node handles fuel false false)
        let v ← (do
          if ← Read.accept .value then nodeUnless handles ends fuel false false
          else return Node.omitted)
        return .mapping [(k, v)] none :: (← flowItems handles fuel false)
      else if ← Read.accept .flowSequenceEnd then return []
      else
        let n ← node handles fuel false false
        return n :: (← flowItems handles fuel false)

/-- Reads the members of a mapping in braces. -/
def flowMembers (handles : Handles) : Nat → (first : Bool) → Read (List (Node × Node))
  | 0, _ => failure
  | fuel + 1, first => do
    let ends : List Token := [.flowEntry, .flowMappingEnd]
    if ← Read.accept .flowMappingEnd then return []
    else
      if !first then
        if !(← Read.accept .flowEntry) then failure
      if ← Read.accept .key then
        let k ← nodeUnless handles (.value :: ends) fuel false false
        let v ← (do
          if ← Read.accept .value then nodeUnless handles ends fuel false false
          else return Node.omitted)
        return (k, v) :: (← flowMembers handles fuel false)
      else if ← Read.accept .flowMappingEnd then return []
      else
        let n ← node handles fuel false false
        return (n, Node.omitted) :: (← flowMembers handles fuel false)

end

/-! ## Documents -/

/-- Reads the directives of a document; a version is given once and is 1.1 or 1.2, and a handle is
given once. -/
def directives : Nat → (versioned : Bool) → Handles → Read Handles
  | 0, _, _ => failure
  | fuel + 1, versioned, given => do
    match ← Read.peek with
    | some (.version major minor) =>
      if versioned || major != 1 || (minor != 1 && minor != 2) then failure
      else
        Read.skip
        directives fuel true given
    | some (.tagPrefix h address) =>
      if (given.lookup h).isSome then failure
      else
        Read.skip
        directives fuel versioned (given ++ [(h, address)])
    | _ => return given

/-- Reads the start of a document, giving the handles of its tags and whether there was a mark.
Directives need a mark after them. -/
def documentHead (bound : Nat) : Read (Handles × Bool) := do
  let before := (← get).tokens.length
  let given ← directives bound false []
  let directed := (← get).tokens.length != before
  let marked ← Read.accept .documentStart
  if directed && !marked then failure else return (given ++ defaultHandles, marked)

/-- True if a mark or a directive comes next.  A document that starts with a mark has no node
then. -/
def documentIsBare : Read Bool := do
  match ← Read.peek with
  | some (.version ..) | some (.tagPrefix ..) => return true
  | _ => Read.sees [.documentStart, .documentEnd]

/-- Reads the one document that the tokens make up; without any token there is nothing in it. -/
def document : Read Node := do
  let bound := (← get).tokens.length + 1
  if bound = 1 then return .nothing
  else
    let (handles, marked) ← documentHead bound
    let root ← (do
      if marked && (← documentIsBare) then return Node.omitted
      else node handles (4 * bound) true false)
    modify fun s => { s with tokens := s.tokens.dropWhile (· == .documentEnd) }
    if (← get).tokens.isEmpty then return root else failure

/-- Document that the tokens make up. -/
def Document.ofTokens? (tokens : List Token) : Option Document :=
  (document.run ⟨tokens, Anchors.none⟩).map fun (root, s) => ⟨root, s.anchors.table⟩

/-- Reads a text that holds one document. -/
def Document.parse? (text : String) : Option Document :=
  (Token.scan? text).bind Document.ofTokens?

end PinKeeper.Yaml
