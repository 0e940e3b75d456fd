/-!
# Toml/Value — tables and what they hold

A text defines its tables piece by piece: by a header, by the dotted name of a value, or only as
the table around another one.  `Item` is a table under construction and remembers how each table
came about, because that decides what may still be added: a table has at most one header, a dotted
name extends only tables that dotted names made, and what is written as a value is complete.
`Value` is the result, in which these differences are gone.
-/

namespace PinKeeper.Toml

/-- Value of a key. -/
inductive Value where
  | text (value : String)
  | integer (value : Int)
  | float
  | truth (value : Bool)
  | time (written : String)
  | array (items : List Value)
  | table (members : List (String × Value))
deriving Repr, Inhabited

/-- How a table came about. -/
inductive Origin where
  | header
  | around
  | dotted
deriving DecidableEq, Repr

/-- What a key has while the text is read: a value, a table, or a list of tables. -/
inductive Item where
  | value (v : Value)
  | table (origin : Origin) (members : List (String × Item))
  | tables (each : List (List (String × Item)))
deriving Repr, Inhabited

/-- Members of a table under construction. -/
abbrev Members := List (String × Item)

namespace Item

mutual

/-- Value that a finished item stands for. -/
def finish : Item → Value
  | .value v => v
  | .table _ ms => .table (finishMembers ms)
  | .tables each => .array (finishTables each)

/-- Values of the members of a table. -/
def finishMembers : List (String × Item) → List (String × Value)
  | [] => []
  | (k, i) :: ms => (k, finish i) :: finishMembers ms

/-- Values of a list of tables. -/
def finishTables : List (List (String × Item)) → List Value
  | [] => []
  | ms :: rest => .table (finishMembers ms) :: finishTables rest

end

end Item

namespace Members

/-- Sets the item of a key. -/
def put (k : String) (i : Item) : Members → Members
  | [] => [(k, i)]
  | (j, x) :: ms => if j = k then (k, i) :: ms else (j, x) :: put k i ms

/-- Changes the last of several tables. -/
def changeLast (f : Members → Option Members) : List Members → Option (List Members)
  | [] => none
  | [ms] => (f ms).map ([·])
  | ms :: rest => (changeLast f rest).map (ms :: ·)

/-- Changes the table at a path, which is made where it is missing.  A list of tables stands for its
last one.  With `dotted` the path is that of a dotted name and does not lead through a table with a
header. -/
def changeAt (dotted : Bool) (f : Members → Option Members) :
    List String → Members → Option Members
  | [], ms => f ms
  | k :: path, ms => do
    match ms.lookup k with
    | none =>
      let inner ← changeAt dotted f path []
      some (ms ++ [(k, .table (if dotted then .dotted else .around) inner)])
    | some (.table origin inner) =>
      if dotted && origin = .header then none
      else some (put k (.table origin (← changeAt dotted f path inner)) ms)
    | some (.tables each) => do
      some (put k (.tables (← changeLast (changeAt dotted f path) each)) ms)
    | some (.value _) => none

/-- Adds a member, unless its key is taken. -/
def add (k : String) (i : Item) (ms : Members) : Option Members :=
  if (ms.lookup k).isSome then none else some (ms ++ [(k, i)])

/-- True if the path leads to a table that only dotted names made, or to none. -/
def endsDotted : List String → Members → Bool
  | [], _ => true
  | [k], ms =>
    match ms.lookup k with
    | some (.table origin _) => origin = .dotted
    | some _ => false
    | none => true
  | k :: path, ms =>
    match ms.lookup k with
    | some (.table _ inner) => endsDotted path inner
    | some (.tables each) => endsDotted path (each.getLast?.getD [])
    | _ => true

/-- Adds a value under a dotted name. -/
def assign (path : List String) (k : String) (v : Value) (ms : Members) : Option Members :=
  if endsDotted path ms then changeAt true (add k (.value v)) path ms else none

/-- Adds the table of a header with what stands under it.  It takes over what has been defined
inside of it before. -/
def addTable (path : List String) (k : String) (fill : Members → Option Members) :
    Members → Option Members :=
  changeAt false (fun ms =>
    match ms.lookup k with
    | none => do add k (.table .header (← fill [])) ms
    | some (.table .around inner) => do some (put k (.table .header (← fill inner)) ms)
    | some _ => none) path

/-- Adds one more to a list of tables. -/
def addToTables (path : List String) (k : String) (fill : Members → Option Members) :
    Members → Option Members :=
  changeAt false (fun ms =>
    match ms.lookup k with
    | none => do add k (.tables [← fill []]) ms
    | some (.tables each) => do some (put k (.tables (each ++ [← fill []])) ms)
    | some _ => none) path

end Members

end PinKeeper.Toml
