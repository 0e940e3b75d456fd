import PinKeeper.Text.Float
import PinKeeper.Time.Instant
import PinKeeper.Text.Blank
import PinKeeper.Text.Hexadecimal
import PinKeeper.Toml.Value

/-!
# Toml/Reader — from text to tables

`parse?` reads a text line by line: a header, or a key with its value, and a comment.  Inside of a
value each reader takes the rest of the text and gives what it read with the rest after it.  Values
nest at most `maxDepth` deep, which bounds the recursion; the lists of the items of arrays are
bounded by the length of the text.
-/

namespace PinKeeper.Toml

/-! ## Characters -/

/-- Blank within a line. -/
def isGap (c : Char) : Bool := c = ' ' || c = '\t'

/-- Character of a comment: no control character but the tab. -/
def isCommentChar (c : Char) : Bool := c = '\t' || (0x20 ≤ c.toNat && c.toNat ≠ 0x7F)

/-- Character of a key without quotes. -/
def isBareKey (c : Char) : Bool := c.isAlphanum || c = '_' || c = '-'

/-- Drops blanks. -/
def skipGap (s : List Char) : List Char := s.dropWhile isGap

/-- Drops a line break, if one is next. -/
def newline? : List Char → Option (List Char)
  | '\n' :: r => some r
  | '\r' :: '\n' :: r => some r
  | _ => none

/-- Drops a comment, if one is next. -/
def skipComment : List Char → List Char
  | '#' :: r => r.dropWhile isCommentChar
  | s => s

/-- Drops blanks and a comment up to the end of the line. -/
def lineEnd? (s : List Char) : Option (List Char) :=
  match skipComment (skipGap s) with
  | [] => some []
  | r => newline? r

/-- Drops blanks, comments and line breaks between the items of an array. -/
def skipLines : Nat → List Char → List Char
  | 0, s => s
  | fuel + 1, s =>
    let r := skipComment (skipGap s)
    match newline? r with
    | some r => skipLines fuel r
    | none => r

/-! ## Strings -/

/-- Reads the code of a character in the given number of hexadecimal digits. -/
def charCode (width : Nat) (s : List Char) : Option (Char × List Char) := do
  let ds := s.take width
  let c ← Text.scalarValue? (← Text.hexNumber? ds)
  if ds.length < width then none else some (c, s.drop width)

/-- Reads what follows a backslash. -/
def escape : List Char → Option (Char × List Char)
  | 'b' :: r => some ('\x08', r)
  | 't' :: r => some ('\t', r)
  | 'n' :: r => some ('\n', r)
  | 'f' :: r => some ('\x0c', r)
  | 'r' :: r => some ('\r', r)
  | '"' :: r => some ('"', r)
  | '\\' :: r => some ('\\', r)
  | 'u' :: r => charCode 4 r
  | 'U' :: r => charCode 8 r
  | _ => none

/-- True for what a string may hold as it stands, line breaks apart. -/
def isStringChar (c : Char) : Bool := isCommentChar c

/-- Reads a string up to its closing quote. -/
def basic : Nat → List Char → Option (List Char × List Char)
  | 0, _ => none
  | fuel + 1, s =>
    match s with
    | '"' :: r => some ([], r)
    | '\\' :: r => do
      let (c, r) ← escape r
      let (cs, r) ← basic fuel r
      some (c :: cs, r)
    | c :: r =>
      if isStringChar c then (basic fuel r).map fun (cs, r) => (c :: cs, r) else none
    | [] => none

/-- Reads a string without escapes up to its closing quote. -/
def literal : List Char → Option (List Char × List Char)
  | [] => none
  | c :: r =>
    if c = '\'' then some ([], r)
    else if isStringChar c then (literal r).map fun (cs, r) => (c :: cs, r)
    else none

/-- Reads the three quotes that close a string of several lines; up to two more quotes before them
belong to it. -/
def closing? (quote : Char) (s : List Char) : Option (List Char × List Char) :=
  let n := (s.takeWhile (· = quote)).length
  if n < 3 then none
  else some (List.replicate (min n 5 - 3) quote, s.drop (min n 5))

/-- Drops blanks and line breaks; at least one line break comes first. -/
def continuation? (s : List Char) : Option (List Char) :=
  (newline? (skipGap s)).map fun r => r.dropWhile fun c => isGap c || c = '\n' || c = '\r'

/-- True if no carriage return stands without its line feed. -/
def returnsPaired : List Char → Bool
  | '\r' :: '\n' :: r => returnsPaired r
  | '\r' :: _ => false
  | _ :: r => returnsPaired r
  | [] => true

/-- Reads a string of several lines up to its closing quotes. -/
def basicLines : Nat → List Char → Option (List Char × List Char)
  | 0, _ => none
  | fuel + 1, s =>
    match closing? '"' s with
    | some found => some found
    | none =>
      match s with
      | '\\' :: r =>
        match continuation? r with
        | some next => if returnsPaired (r.take (r.length - next.length)) then basicLines fuel next
          else none
        | none => do
          let (c, r) ← escape r
          let (cs, r) ← basicLines fuel r
          some (c :: cs, r)
      | c :: r =>
        match newline? s with
        | some next => (basicLines fuel next).map fun (cs, r) => ('\n' :: cs, r)
        | none =>
          if isStringChar c then (basicLines fuel r).map fun (cs, r) => (c :: cs, r) else none
      | [] => none

/-- Reads a string of several lines without escapes up to its closing quotes. -/
def literalLines : Nat → List Char → Option (List Char × List Char)
  | 0, _ => none
  | fuel + 1, s =>
    match closing? '\'' s with
    | some found => some found
    | none =>
      match newline? s, s with
      | some next, _ => (literalLines fuel next).map fun (cs, r) => ('\n' :: cs, r)
      | none, c :: r =>
        if isStringChar c then (literalLines fuel r).map fun (cs, r) => (c :: cs, r) else none
      | none, [] => none

/-- Drops the line break that may follow the opening quotes. -/
def skipNewline (s : List Char) : List Char := (newline? s).getD s

/-- Reads a string with its quotes. -/
def string (s : List Char) : Option (String × List Char) :=
  let found := match s with
    | '"' :: '"' :: '"' :: r => basicLines (r.length + 1) (skipNewline r)
    | '"' :: r => basic (r.length + 1) r
    | '\'' :: '\'' :: '\'' :: r => literalLines (r.length + 1) (skipNewline r)
    | '\'' :: r => literal r
    | _ => none
  found.map fun (cs, r) => (String.ofList cs, r)

/-! ## Keys -/

/-- Reads one part of a key. -/
def keyPart (s : List Char) : Option (String × List Char) :=
  match s with
  | '"' :: r => (basic (r.length + 1) r).map fun (cs, r) => (String.ofList cs, r)
  | '\'' :: r => (literal r).map fun (cs, r) => (String.ofList cs, r)
  | _ =>
    let run := s.takeWhile isBareKey
    if run.isEmpty then none else some (String.ofList run, s.drop run.length)

/-- Reads a key: parts with points between them. -/
def key : Nat → List Char → Option (List String × List Char)
  | 0, _ => none
  | fuel + 1, s => do
    let (part, r) ← keyPart (skipGap s)
    match skipGap r with
    | '.' :: r => (key fuel r).map fun (parts, r) => (part :: parts, r)
    | r => some ([part], r)

/-- Bound of the depth of collections and of the parts of a key; neither reaches it. -/
def maxDepth : Nat := 80

/-! ## Dates and times -/

/-- Time of day with its fraction, written as it is read back. -/
def timeOfDay (s : List Char) : Option (String × List Char) := do
  let (hour, r) ← Time.digitRun 2 2 s
  let (minute, r) ← Time.digitRun 2 2 (← Time.expect ':' r)
  let (second, r) ← Time.digitRun 2 2 (← Time.expect ':' r)
  let (places, r) ← match r with
    | '.' :: r =>
      let run := r.takeWhile Char.isDigit
      if run.isEmpty then none else some (run.take 9, r.drop run.length)
    | r => some ([], r)
  let kept := (places.reverse.dropWhile (· = '0')).reverse
  let written := Text.joined ":" [Text.zeroPadded 2 hour, Text.zeroPadded 2 minute,
    Text.zeroPadded 2 second]
  if 23 < hour || 59 < minute || 60 < second then none
  else some (if kept.isEmpty then written else written ++ "." ++ String.ofList kept, r)

/-- Offset from the zero meridian. -/
def zone : List Char → Option (String × List Char)
  | 'Z' :: r => some ("Z", r)
  | 'z' :: r => some ("Z", r)
  | '+' :: r => signed "+" r
  | '-' :: r => signed "-" r
  | _ => none
where
  signed (sign : String) (r : List Char) : Option (String × List Char) := do
    let (hour, r) ← Time.digitRun 2 2 r
    let (minute, r) ← Time.digitRun 2 2 (← Time.expect ':' r)
    if 23 < hour || 59 < minute then none
    else some (sign ++ Text.zeroPadded 2 hour ++ ":" ++ Text.zeroPadded 2 minute, r)

/-- Date, with the time of day and the offset that may follow. -/
def date (s : List Char) : Option (String × List Char) := do
  let (year, r) ← Time.digitRun 4 4 s
  let (month, r) ← Time.digitRun 2 2 (← Time.expect '-' r)
  let (day, r) ← Time.digitRun 2 2 (← Time.expect '-' r)
  if !(Time.Date.valid ⟨year, month, day⟩) then none
  else
    let written := Text.joined "-" [Text.zeroPadded 4 year, Text.zeroPadded 2 month,
      Text.zeroPadded 2 day]
    let timed := match r with
      | c :: r => if c = 'T' || c = 't' || c = ' ' then timeOfDay r else none
      | [] => none
    match timed with
    | none => some (written, r)
    | some (time, r) =>
      let (offset, r) := (zone r).getD ("", r)
      some (written ++ "T" ++ time ++ offset, r)

/-! ## Numbers -/

/-- Reads digits with single underscores between them. -/
def digitGroups (isDigit : Char → Bool) (s : List Char) : Option (List Char × List Char) :=
  let run := s.takeWhile fun c => isDigit c || c = '_'
  let paired := Text.splitAt '_' run
  if paired.any (·.isEmpty) then none else some (paired.flatten, s.drop run.length)

/-- Least integer. -/
def minInt : Int := -9223372036854775808

/-- Greatest integer. -/
def maxInt : Int := 9223372036854775807

/-- Integer within bounds. -/
def integer? (i : Int) : Option Value :=
  if minInt ≤ i && i ≤ maxInt then some (.integer i) else none

/-- Reads an integer with the mark of a base. -/
def based (base : Nat) (isDigit : Char → Bool) (s : List Char) : Option (Value × List Char) := do
  let (ds, r) ← digitGroups isDigit s
  let n := ds.foldl (fun n c => base * n + ((Text.hexNumber? [c]).getD 0)) 0
  some (← integer? n, r)

/-- Reads the part of a number after its point. -/
def places : List Char → Option (Option (List Char) × List Char)
  | '.' :: r => (digitGroups Char.isDigit r).map fun (ds, r) => (some ds, r)
  | r => some (none, r)

/-- Reads the exponent of a number. -/
def power : List Char → Option (Option Int × List Char)
  | [] => some (none, [])
  | c :: r =>
    if c = 'e' || c = 'E' then
      let (negative, r) := match r with
        | '-' :: r => (true, r)
        | '+' :: r => (false, r)
        | r => (false, r)
      (digitGroups Char.isDigit r).map fun (ds, r) =>
        let n : Int := Text.ofDigits ds
        (some (if negative then -n else n), r)
    else some (none, c :: r)

/-- Reads a number in base ten after its sign. -/
def decimal (negative : Bool) (s : List Char) : Option (Value × List Char) := do
  let (whole, r) ← digitGroups Char.isDigit s
  if whole.length != 1 && whole.head? == some '0' then none
  else
    let (fraction, r) ← places r
    let (exponent, r) ← power r
    match fraction, exponent with
    | none, none =>
      let n : Int := Text.ofDigits whole
      some (← integer? (if negative then -n else n), r)
    | _, _ =>
      let ds := fraction.getD []
      if Text.overflows (whole ++ ds) (exponent.getD 0 - ds.length) then none
      else some (.float, r)

/-- Reads a number. -/
def number (s : List Char) : Option (Value × List Char) :=
  let octal (c : Char) : Bool := '0' ≤ c && c ≤ '7'
  let binary (c : Char) : Bool := c = '0' || c = '1'
  let hexadecimal (c : Char) : Bool := (Text.hexValue? c).isSome
  let unsigned (negative : Bool) (r : List Char) : Option (Value × List Char) :=
    match r with
    | 'i' :: 'n' :: 'f' :: r => some (.float, r)
    | 'n' :: 'a' :: 'n' :: r => some (.float, r)
    | r => decimal negative r
  match s with
  | '0' :: 'x' :: r => based 16 hexadecimal r
  | '0' :: 'o' :: r => based 8 octal r
  | '0' :: 'b' :: r => based 2 binary r
  | '+' :: r => unsigned false r
  | '-' :: r => unsigned true r
  | r => unsigned false r

/-! ## Values -/

/-- Reads a value without parts. -/
def scalar (s : List Char) : Option (Value × List Char) :=
  match s with
  | 't' :: 'r' :: 'u' :: 'e' :: r => some (.truth true, r)
  | 'f' :: 'a' :: 'l' :: 's' :: 'e' :: r => some (.truth false, r)
  | '"' :: _ | '\'' :: _ => (string s).map fun (t, r) => (.text t, r)
  | _ =>
    match date s with
    | some (t, r) => some (.time t, r)
    | none =>
      match timeOfDay s with
      | some (t, r) => some (.time t, r)
      | none => number s

/-- Adds a member of a table that is written as a value. -/
def addInline (parts : List String) (v : Value) (ms : Members) : Option Members :=
  match parts.reverse with
  | [] => none
  | k :: path => ms.assign path.reverse k v

mutual

/-- Reads a value. -/
def value : (depth : Nat) → Nat → List Char → Option (Value × List Char)
  | _, 0, _ => none
  | depth, fuel + 1, s =>
    match s with
    | '[' :: r => if maxDepth ≤ depth + 1 then none else items (depth + 1) fuel r
    | '{' :: r =>
      if maxDepth ≤ depth + 1 then none
      else match skipGap r with
        | '}' :: r => some (.table [], r)
        | r => members (depth + 1) fuel [] r
    | _ => scalar s

/-- Reads the items of an array up to its closing bracket. -/
def items : (depth : Nat) → Nat → List Char → Option (Value × List Char)
  | _, 0, _ => none
  | depth, fuel + 1, s =>
    match skipLines (s.length + 1) s with
    | ']' :: r => some (.array [], r)
    | r => do
      let (v, r) ← value depth fuel r
      match skipLines (r.length + 1) r with
      | ']' :: r => some (.array [v], r)
      | ',' :: r => do
        let (rest, r) ← items depth fuel r
        match rest with
        | .array vs => some (.array (v :: vs), r)
        | _ => none
      | _ => none

/-- Reads the members of a table up to its closing brace; all on one line. -/
def members : (depth : Nat) → Nat → Members → List Char → Option (Value × List Char)
  | _, 0, _, _ => none
  | depth, fuel + 1, ms, s => do
    let (parts, r) ← key (maxDepth - 1) s
    match r with
    | '=' :: r => do
      let (v, r) ← value depth fuel (skipGap r)
      let ms ← addInline parts v ms
      match skipGap r with
      | '}' :: r => some (Item.finish (.table .header ms), r)
      | ',' :: r => members depth fuel ms r
      | _ => none
    | _ => none

end

/-! ## Lines -/

/-- Line of a text: a header with the path of its table, or a key with its value. -/
inductive Line where
  | header (path : List String)
  | listHeader (path : List String)
  | assignment (parts : List String) (v : Value)

/-- Reads a line that is not empty. -/
def line (s : List Char) : Option (Line × List Char) := do
  match s with
  | '[' :: '[' :: r =>
    let (path, r) ← key (maxDepth - 1) r
    match r with
    | ']' :: ']' :: r => some (.listHeader path, ← lineEnd? r)
    | _ => none
  | '[' :: r =>
    let (path, r) ← key (maxDepth - 1) r
    match r with
    | ']' :: r => some (.header path, ← lineEnd? r)
    | _ => none
  | _ =>
    let (parts, r) ← key (maxDepth - 1) s
    match r with
    | '=' :: r =>
      let (v, r) ← value 0 (2 * r.length + 2) (skipGap r)
      some (.assignment parts v, ← lineEnd? r)
    | _ => none

/-- Reads all lines. -/
def textLines : Nat → List Char → Option (List Line)
  | 0, _ => none
  | fuel + 1, s =>
    match skipLines (s.length + 1) s with
    | [] => some []
    | r => do
      let (l, r) ← line r
      (textLines fuel r).map (l :: ·)

/-- Adds the assignments up to the next header, giving the lines from there on. -/
def assignments : List Line → Members → Option Members
  | .assignment parts v :: ls, ms => do assignments ls (← addInline parts v ms)
  | _, ms => some ms

/-- Adds the tables of the headers in order; assignments belong to the header before them. -/
def sections : List Line → Members → Option Members
  | [], ms => some ms
  | .assignment _ _ :: ls, ms => sections ls ms
  | .header path :: ls, ms =>
    match path.reverse with
    | [] => none
    | k :: outer => do sections ls (← ms.addTable outer.reverse k (assignments ls))
  | .listHeader path :: ls, ms =>
    match path.reverse with
    | [] => none
    | k :: outer => do sections ls (← ms.addToTables outer.reverse k (assignments ls))

/-- Table that a text describes. -/
def parse? (text : String) : Option (List (String × Value)) := do
  let cs := match text.toList with
    | c :: cs => if c.toNat = 0xFEFF then cs else c :: cs
    | [] => []
  let ls ← textLines (cs.length + 1) cs
  some (Item.finishMembers (← sections ls (← assignments ls [])))

end PinKeeper.Toml
