import PinKeeper.Text.Blank

/-!
# Files/Path — paths as texts

A path is the text that was given, and stays it: taking a parent or joining a name changes only what
it has to.  What counts are the components, the pieces between slashes: an empty piece counts for
nothing, and so does a point, except as the first piece of a relative path.
-/

namespace PinKeeper.Path

/-- Pieces between the slashes. -/
def pieces (p : String) : List String := (Text.splitAt '/' p.toList).map String.ofList

/-- Path with the given pieces. -/
def ofPieces (ps : List String) : String := Text.joined "/" ps

/-- True for a path from the root. -/
def isAbsolute (p : String) : Bool := p.toList.head? == some '/'

/-- True for a piece that counts for nothing, unless it is the first. -/
def isIdle (piece : String) : Bool := piece.isEmpty || piece == "."

/-- Drops idle pieces at the end, as far as the first piece. -/
def dropIdleEnd (ps : List String) : List String :=
  ps.take 1 ++ ((ps.drop 1).reverse.dropWhile isIdle).reverse

/-- Components: the pieces that count; a leading empty piece stands for the root. -/
def components (p : String) : List String :=
  match pieces p with
  | [] => []
  | first :: rest =>
    (if first.isEmpty && !isAbsolute p then [] else [first]) ++ rest.filter fun q => !isIdle q

/-- Last component, if it is a name. -/
def fileName? (p : String) : Option String :=
  match (components p).getLast? with
  | some name => if isIdle name || name == ".." then none else some name
  | none => none

/-- What stands after the last point of the file name; a point at the start of it does not count. -/
def extension? (p : String) : Option String := do
  let name ← fileName? p
  match (Text.splitAt '.' name.toList).reverse with
  | last :: before =>
    if before.isEmpty || (before.length == 1 && before.head?.any (·.isEmpty)) then none
    else some (String.ofList last)
  | [] => none

/-- Path without its last component; none for the root and the empty path. -/
def parent? (p : String) : Option String :=
  if (components p).isEmpty || components p == [""] then none
  else
    let shorter := dropIdleEnd (dropIdleEnd (pieces p)).dropLast
    some (if shorter == [""] && isAbsolute p then "/" else ofPieces shorter)

/-- Appends a relative path; an absolute one stands for itself. -/
def join (p q : String) : String :=
  if isAbsolute q || p.isEmpty then q
  else if p.toList.getLast? == some '/' then p ++ q
  else p ++ "/" ++ q

/-- Drops pieces as long as the components of a base ask for it. -/
def dropComponents : (base : List String) → (atStart : Bool) → List String → Option (List String)
  | [], atStart, ps => some (if atStart then ps else ps.dropWhile isIdle)
  | _ :: _, _, [] => none
  | b :: bs, atStart, p :: ps =>
    if isIdle p && !atStart then dropComponents (b :: bs) false ps
    else if p == b then dropComponents bs false ps
    else none

/-- Path relative to a base; none where it does not lead through the base. -/
def relativeTo? (base p : String) : Option String :=
  (dropComponents (components base) true (pieces p)).map ofPieces

end PinKeeper.Path
