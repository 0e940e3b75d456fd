import PinKeeper.Files.Path
import PinKeeper.Text.Encoding

/-!
# Files/Tree — files, directories and links

A `Disk` is a tree of entries with a working directory in it.  A path is resolved component by
component from the working directory, through at most `maxLinks` links, to the location of an entry
(`Disk.find`), and the operations read or change what stands there.

Not everything goes through.  A directory may be barred, so that neither its entries nor the ways
through it can be found out; and a write may break off when the file has been opened and emptied
(`Disk.writeUntil`), which is not the same as a file that cannot be opened.
-/

namespace PinKeeper

/-! ## Entries -/

/-- Content of a file: bytes, or a number of zero bytes. -/
inductive Content where
  | bytes (value : ByteArray)
  | zeros (count : Nat)

namespace Content

instance : DecidableEq Content
  | .bytes a, .bytes b =>
    @decidable_of_decidable_of_iff _ _ (ByteArray.instDecidableEq a b) (by rw [bytes.injEq])
  | .zeros m, .zeros n => @decidable_of_decidable_of_iff _ _ (m.decEq n) (by rw [zeros.injEq])
  | .bytes _, .zeros _ => isFalse nofun
  | .zeros _, .bytes _ => isFalse nofun

/-- Number of bytes. -/
def length : Content → Nat
  | .bytes b => b.size
  | .zeros n => n

/-- The bytes themselves. -/
def toBytes : Content → ByteArray
  | .bytes b => b
  | .zeros n => ByteArray.mk (Array.replicate n 0)

/-- The first bytes. -/
def take (n : Nat) : Content → Content
  | .bytes b => .bytes (b.extract 0 n)
  | .zeros m => .zeros (min n m)

/-- Content of a text. -/
def ofText (s : String) : Content := .bytes s.toUTF8

/-- Text of the content, if it is well-formed. -/
def text? (c : Content) : Option String := Text.decoded? c.toBytes

instance : Inhabited Content := ⟨.zeros 0⟩

end Content

/-- Why an operation on a file fails. -/
inductive FileError where
  | notFound
  | alreadyExists
  | notDirectory
  | isDirectory
  | tooManyLinks
  | notText
  | noParent
  | other (text : String)
deriving DecidableEq, Repr

/-- Wording of the operating system, with its number of the error. -/
def FileError.message : FileError → String
  | .notFound => "No such file or directory (os error 2)"
  | .alreadyExists => "File exists (os error 17)"
  | .notDirectory => "Not a directory (os error 20)"
  | .isDirectory => "Is a directory (os error 21)"
  | .tooManyLinks => "Too many levels of symbolic links (os error 40)"
  | .notText => "stream did not contain valid UTF-8"
  | .noParent => "failed to create whole tree"
  | .other text => text

/-- File with its permissions, directory with its entries by name, link to a path, or a device that
holds nothing: it reads as empty and takes whatever is written.  A directory that cannot be looked
into is barred, for a reason. -/
inductive Entry where
  | file (content : Content) (mode : Nat)
  | directory (entries : List (String × Entry))
  | link (target : String)
  | device
  | barred (why : FileError)
deriving Inhabited

namespace Entry

def isDirectory : Entry → Bool
  | .directory _ | .barred _ => true
  | _ => false

/-- Content of an entry that can be read. -/
def read : Entry → Except FileError Content
  | .file content _ => .ok content
  | .device => .ok (.zeros 0)
  | _ => .error .isDirectory

/-- Entry at a location, which is a list of names from here on. -/
def at? (e : Entry) : List String → Option Entry
  | [] => some e
  | name :: rest =>
    match e with
    | .directory es => (es.lookup name).bind fun e => e.at? rest
    | _ => none

/-- Puts an entry under a name. -/
def putIn (name : String) (e : Entry) : List (String × Entry) → List (String × Entry)
  | [] => [(name, e)]
  | (n, x) :: es => if n = name then (n, e) :: es else (n, x) :: putIn name e es

/-- Puts an entry at a location; the directory that holds it has to be there. -/
def put (new : Entry) : List String → Entry → Entry
  | [], _ => new
  | name :: rest, .directory es =>
    .directory (putIn name (put new rest ((es.lookup name).getD (.directory []))) es)
  | _, e => e

end Entry

/-! ## Locations -/

/-- Where a path leads: to an entry, or to a free name in a directory. -/
inductive Found where
  | entry (location : List String)
  | vacant (directory : List String) (name : String)
deriving DecidableEq, Repr

/-- Links that a path may lead through. -/
def maxLinks : Nat := 40

/-- Tree of files with a working directory. -/
structure Disk where
  root : Entry
  workDir : List String

namespace Disk

/-- Components that are walked along; a slash at the end asks for a directory. -/
def steps (p : String) : List String :=
  let ps := (Path.pieces p).filter fun q => !q.isEmpty
  if p.toList.getLast? == some '/' then ps ++ ["."] else ps

/-- Walks along components from a location, through the links that are met; the location is given
backwards. -/
def walk (root : Entry) : (links : Nat) → (here : List String) → List String →
    Except FileError Found
  | _, here, [] => .ok (.entry here.reverse)
  | links, here, step :: rest =>
    match root.at? here.reverse with
    | some (.directory es) =>
      if step = "." then walk root links here rest
      else if step = ".." then walk root links (here.drop 1) rest
      else
        match es.lookup step with
        | none => if rest.isEmpty then .ok (.vacant here.reverse step) else .error .notFound
        | some (.link target) =>
          match links with
          | 0 => .error .tooManyLinks
          | links + 1 =>
            walk root links (if Path.isAbsolute target then [] else here) (steps target ++ rest)
        | some _ => walk root links (step :: here) rest
    | some (.barred why) => .error why
    | some _ => .error .notDirectory
    | none => .error .notFound
termination_by links _ steps => (links, steps.length)

/-- Location that a path leads to, or the free name. -/
def locate (d : Disk) (p : String) : Except FileError Found :=
  if p.isEmpty then .error .notFound
  else walk d.root maxLinks (if Path.isAbsolute p then [] else d.workDir.reverse) (steps p)

/-- Location of the entry that a path leads to. -/
def find (d : Disk) (p : String) : Except FileError (List String) := do
  match ← d.locate p with
  | .entry location => .ok location
  | .vacant _ _ => .error .notFound

/-- Entry that a path leads to; links in it are left as they are. -/
def entry (d : Disk) (p : String) : Except FileError Entry := do
  match d.root.at? (← d.find p) with
  | some e => .ok e
  | none => .error .notFound

/-- True if a path leads to an entry. -/
def has (d : Disk) (p : String) : Bool := (d.entry p).toBool

/-- Content of a file. -/
def read (d : Disk) (p : String) : Except FileError Content := do (← d.entry p).read

/-- Puts an entry at a location. -/
def put (d : Disk) (location : List String) (e : Entry) : Disk :=
  { d with root := Entry.put e location d.root }

/-- Permissions of a file that is made without saying which. -/
def defaultMode : Nat := 0o644

/-- Path without the slashes at its end; the root keeps one. -/
def withoutEndSlashes (p : String) : String :=
  match (p.toList.reverse.dropWhile (· = '/')).reverse with
  | [] => if p.isEmpty then "" else "/"
  | cs => String.ofList cs

/-- Writes a file in full.  It is made where it is missing, and keeps its permissions where not. -/
def write (d : Disk) (p : String) (content : Content) : Except FileError Disk := do
  match ← d.locate (withoutEndSlashes p) with
  | .entry location =>
    match d.root.at? location with
    | some (.file _ mode) =>
      if p.toList.getLast? == some '/' then .error .notDirectory
      else .ok (d.put location (.file content mode))
    | some .device => if p.toList.getLast? == some '/' then .error .notDirectory else .ok d
    | _ => .error .isDirectory
  | .vacant directory name =>
    if p.toList.getLast? == some '/' then .error .isDirectory
    else .ok (d.put (directory ++ [name]) (.file content defaultMode))

/-- Where a write breaks off: after how many bytes, and why. -/
structure Break where
  after : Nat
  why : FileError
deriving DecidableEq, Repr

/-- What is written of a content until the write breaks off. -/
def Break.begun (stop : Option Break) (content : Content) : Content :=
  match stop with
  | some b => content.take b.after
  | none => content

/-- Writes a file by a write that may break off.  What the file held before is gone then, and the
bytes up to there stay; but where the file cannot be opened all is left as it is. -/
def writeUntil (d : Disk) (stop : Option Break) (p : String) (content : Content) :
    Except FileError Unit × Disk :=
  match d.write p (Break.begun stop content) with
  | .error e => (.error e, d)
  | .ok d =>
    match stop with
    | some b => (.error b.why, d)
    | none => (.ok (), d)

/-- Sets the permissions of a file. -/
def setMode (d : Disk) (p : String) (mode : Nat) : Except FileError Disk := do
  let location ← d.find p
  match d.root.at? location with
  | some (.file content _) => .ok (d.put location (.file content mode))
  | _ => .ok d

/-- Makes one directory. -/
def makeDir (d : Disk) (p : String) : Except FileError Disk := do
  match ← d.locate (withoutEndSlashes p) with
  | .entry _ => .error .alreadyExists
  | .vacant directory name => .ok (d.put (directory ++ [name]) (.directory []))

/-- True if a path leads to a directory. -/
def hasDirectory (d : Disk) (p : String) : Bool :=
  match d.entry p with
  | .ok e => e.isDirectory
  | .error _ => false

/-- Makes a directory and those above it that are missing; `depth` bounds how many. -/
def makeDirsWithin : (depth : Nat) → Disk → String → Except FileError Disk
  | 0, _, _ => .error .noParent
  | depth + 1, d, p =>
    if p.isEmpty then .ok d
    else
      match d.makeDir p with
      | .ok d => .ok d
      | .error e =>
        if e != .notFound then (if d.hasDirectory p then .ok d else .error e)
        else
          match Path.parent? p with
          | none => .error .noParent
          | some above => do
            let d ← makeDirsWithin depth d above
            match d.makeDir p with
            | .ok d => .ok d
            | .error e => if d.hasDirectory p then .ok d else .error e

/-- Makes a directory and those above it that are missing. -/
def makeDirs (d : Disk) (p : String) : Except FileError Disk :=
  makeDirsWithin (p.length + 1) d p

/-- Makes a link. -/
def link (d : Disk) (p target : String) : Except FileError Disk := do
  match ← d.locate p with
  | .entry _ => .error .alreadyExists
  | .vacant directory name => .ok (d.put (directory ++ [name]) (.link target))

end Disk

end PinKeeper
