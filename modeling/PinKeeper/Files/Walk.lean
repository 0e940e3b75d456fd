import PinKeeper.Files.Tree
import PinKeeper.Total

/-!
# Files/Walk — the files of a tree and the names they are uploaded under

A single file is uploaded under its own name, the files of a directory under their paths from the
parent of the directory on.  Links below the root are passed over, so the walk follows the tree and
ends.  It ends early at a directory that is barred, and gives no files then.  The result is sorted
by name.
-/

namespace PinKeeper

/-- File to upload: where it is, the name it gets and what it holds. -/
structure LocalFile where
  path : String
  name : String
  content : Content
deriving Inhabited

/-- Number of bytes of a file. -/
def LocalFile.size (f : LocalFile) : Nat := f.content.length

namespace Walk

/-- Name of a file below a base: its path from there on, with slashes only. -/
def uploadName (base path : String) : String :=
  String.ofList (((Path.relativeTo? base path).getD path).toList.map fun c =>
    if c = '\\' then '/' else c)

/-- Files that stand directly in a directory. -/
def filesOf (base path : String) (es : List (String × Entry)) : List LocalFile :=
  es.filterMap fun (name, e) =>
    let inner := Path.join path name
    match e with
    | .file content _ => some ⟨inner, uploadName base inner, content⟩
    | _ => none

mutual

/-- Files of an entry, if it is a directory: its own first, then those of the directories in it. -/
def filesUnder (base path : String) : Entry → Except FileError (List LocalFile)
  | .directory es => do return filesOf base path es ++ (← filesBelow base path es)
  | .barred why => .error why
  | _ => .ok []

/-- Files of the directories among some entries, those of the last directory first. -/
def filesBelow (base path : String) : List (String × Entry) → Except FileError (List LocalFile)
  | [] => .ok []
  | (name, e) :: es => do
    let found ← filesBelow base path es
    return found ++ (← filesUnder base (Path.join path name) e)

end

/-- Order of the names. -/
def nameLe (a b : LocalFile) : Bool := decide (¬b.name < a.name)

/-- Files to upload for an entry at a path; what is neither a file nor a directory has none. -/
def files (root : String) (e : Entry) : Except FileError (List LocalFile) :=
  match e with
  | .file content _ => .ok [⟨root, (Path.fileName? root).getD "", content⟩]
  | .directory _ | .barred _ => do
    return (← filesUnder ((Path.parent? root).getD root) root e).mergeSort nameLe
  | _ => .error .notDirectory

/-- Bytes of all files together, in 64 bits. -/
def totalSize (fs : List LocalFile) : Nat := sum64 (fs.map (·.size))

end Walk

end PinKeeper
