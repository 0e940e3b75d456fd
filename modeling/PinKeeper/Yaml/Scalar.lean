import PinKeeper.Text.Hexadecimal
import PinKeeper.Yaml.Cursor

/-!
# Yaml/Scalar — texts of a document: plain, quoted and block scalars

Each form has a reader that takes the place after its introduction and gives the text with the
place after it.  Line folding is the same in the plain and the quoted forms: one line break
between words counts as a blank, of several the first is dropped (`Gap.text`).  `floor` is the
least column that the lines of the surrounding block may have.
-/

namespace PinKeeper.Yaml

/-- Form in which a scalar is written. -/
inductive Style where
  | plain
  | quoted
  | literal
  | folded
deriving DecidableEq, Repr

/-! ## What stands between words -/

/-- Blanks and line breaks between two words: the blanks of the line, the first break where there
is one, and the further ones. -/
structure Gap where
  blanks : List Char
  first : Option Char
  further : List Char
  lineStart : Bool

namespace Gap

def none : Gap := ⟨[], .none, [], false⟩

/-- What a gap counts as. -/
def text (g : Gap) : List Char :=
  if g.lineStart then
    match g.first with
    | some '\n' => if g.further.isEmpty then [' '] else g.further
    | some c => c :: g.further
    | .none => g.further
  else g.blanks

/-- Reads blanks and line breaks.  A tab before column `floor` at the start of a line is
refused. -/
def read (floor : Nat) : Nat → Gap → Cursor → Option (Gap × Cursor)
  | 0, _, _ => .none
  | fuel + 1, g, c =>
    match c.lineBreak? with
    | some (x, next) =>
      if g.lineStart then read floor fuel { g with further := g.further ++ [x] } next
      else read floor fuel { g with blanks := [], first := some x, lineStart := true } next
    | .none =>
      if c.atSpace then
        if g.lineStart && c.column < floor && c.sees '\t' then .none
        else if g.lineStart then read floor fuel g (c.skip 1)
        else read floor fuel { g with blanks := g.blanks ++ c.rest.take 1 } (c.skip 1)
      else some (g, c)

end Gap

/-! ## Plain scalars -/

/-- True where a plain scalar ends: at a colon before a blank, and inside of brackets at a comma or
a bracket. -/
def endsPlain (inFlow : Bool) (c : Cursor) : Bool :=
  match c.peek 0 with
  | some ':' => c.endsWord 1
  | some x => inFlow && (x = ',' || x = '[' || x = ']' || x = '{' || x = '}')
  | none => true

/-- True at a colon before a comma, a question mark or a bracket. -/
def badColon (c : Cursor) : Bool :=
  c.sees ':' &&
    (c.peek 1).any fun x => x = ',' || x = '?' || x = '[' || x = ']' || x = '{' || x = '}'

/-- Reads a word of a plain scalar. -/
def plainWord (inFlow : Bool) : Nat → Cursor → Option (List Char × Cursor)
  | 0, _ => none
  | fuel + 1, c =>
    if c.endsWord 0 then some ([], c)
    else if inFlow && badColon c then none
    else if endsPlain inFlow c then some ([], c)
    else (plainWord inFlow fuel (c.skip 1)).map fun (w, next) => (c.rest.take 1 ++ w, next)

/-- Reads the words of a plain scalar; the flag tells whether it ended at the start of a line. -/
def plainWords (inFlow : Bool) (floor : Nat) :
    Nat → Gap → Cursor → Option (List Char × Bool × Cursor)
  | 0, _, _ => none
  | fuel + 1, g, c => do
    if c.atDocumentMark '-' || c.atDocumentMark '.' || c.sees '#' then some ([], g.lineStart, c)
    else
      let (word, next) ← plainWord inFlow (c.rest.length + 1) c
      let (lead, gap) := if word.isEmpty then ([], g) else (g.text, Gap.none)
      if next.atSpace || next.atBreak then
        let (gap, next) ← gap.read floor (next.rest.length + 1) next
        if !inFlow && next.column < floor then some (lead ++ word, gap.lineStart, next)
        else
          let (more, lineStart, last) ← plainWords inFlow floor fuel gap next
          some (lead ++ word ++ more, lineStart, last)
      else some (lead ++ word, gap.lineStart, next)

/-- Reads a plain scalar. -/
def plainScalar (inFlow : Bool) (floor : Nat) (c : Cursor) :
    Option (String × Bool × Cursor) :=
  (plainWords inFlow floor (c.rest.length + 1) Gap.none c).map fun (s, lineStart, next) =>
    (String.ofList s, lineStart, next)

/-! ## Quoted scalars -/

/-- Code of the character that a letter after a backslash stands for. -/
def escapeCode? (c : Char) : Option Nat :=
  [('0', 0), ('a', 7), ('b', 8), ('t', 9), ('\t', 9), ('n', 10), ('v', 11), ('f', 12), ('r', 13),
    ('e', 0x1B), (' ', 0x20), ('"', 0x22), ('/', 0x2F), ('\'', 0x27), ('\\', 0x5C), ('N', 0x85),
    ('_', 0xA0), ('L', 0x2028), ('P', 0x2029)].lookup c

/-- Number of hexadecimal digits after a letter that introduces a code. -/
def escapeWidth? (c : Char) : Option Nat :=
  [('x', 2), ('u', 4), ('U', 8)].lookup c

/-- Reads what follows a backslash. -/
def escape (c : Cursor) : Option (Char × Cursor) := do
  let letter ← c.peek 0
  match escapeCode? letter with
  | some n => some (Char.ofNat n, c.skip 1)
  | none =>
    let width ← escapeWidth? letter
    let ds := (c.rest.drop 1).take width
    if ds.length < width then none
    else some (← Text.scalarValue? (← Text.hexNumber? ds), c.skip (1 + width))

/-- Reads a word of a quoted scalar.  The flag tells that it ended with an escaped line break. -/
def quotedWord (quote : Char) : Nat → Cursor → Option (List Char × Bool × Cursor)
  | 0, _ => none
  | fuel + 1, c =>
    let single := quote = '\''
    let add (x : Char) (next : Cursor) :=
      (quotedWord quote fuel next).map fun (w, broken, last) => (x :: w, broken, last)
    if c.endsWord 0 then some ([], false, c)
    else if single && c.sees '\'' && c.peek 1 == some '\'' then add '\'' (c.skip 2)
    else if c.sees quote then some ([], false, c)
    else if !single && c.sees '\\' then
      match (c.skip 1).lineBreak? with
      | some (_, next) => some ([], true, next)
      | none => do
        let (x, next) ← escape (c.skip 1)
        add x next
    else
      match c.peek 0 with
      | some x => add x (c.skip 1)
      | none => none

/-- Reads the words of a quoted scalar up to the closing quote. -/
def quotedWords (quote : Char) : Nat → Cursor → Option (List Char × Cursor)
  | 0, _ => none
  | fuel + 1, c => do
    if c.atDocumentMark '-' || c.atDocumentMark '.' || c.atEnd then none
    else
      let (word, broken, next) ← quotedWord quote (c.rest.length + 1) c
      if next.sees quote then some (word, next.skip 1)
      else
        let gap := if broken then { Gap.none with lineStart := true } else Gap.none
        let (gap, next) ← gap.read 0 (next.rest.length + 1) next
        let (more, last) ← quotedWords quote fuel next
        some (word ++ gap.text ++ more, last)

/-- Reads a quoted scalar after its opening quote. -/
def quotedScalar (quote : Char) (c : Cursor) : Option (String × Cursor) :=
  (quotedWords quote (c.rest.length + 1) c).map fun (s, next) => (String.ofList s, next)

/-! ## Block scalars -/

/-- What becomes of the line breaks at the end of a block scalar. -/
inductive Chomping where
  | strip
  | clip
  | keep
deriving DecidableEq

/-- Reads the sign of the chomping. -/
def chomping? (c : Cursor) : Option (Chomping × Cursor) :=
  if c.sees '+' then some (.keep, c.skip 1)
  else if c.sees '-' then some (.strip, c.skip 1)
  else none

/-- Reads the digit of an indentation; zero is refused. -/
def increment? (c : Cursor) : Option (Option Nat × Cursor) :=
  match c.peek 0 with
  | some x =>
    if x.isDigit then
      if x = '0' then none else some (some (x.toNat - '0'.toNat), c.skip 1)
    else some (none, c)
  | none => some (none, c)

/-- Reads the rest of the line that introduces a block scalar: chomping and indentation in any
order, then blanks and a comment. -/
def blockHeader (c : Cursor) : Option (Chomping × Option Nat × Cursor) := do
  let (chomping, increment, c) ← match chomping? c with
    | some (chomping, c) => (increment? c).map fun (n, c) => (chomping, n, c)
    | none => (increment? c).map fun (n, c) =>
      match n, chomping? c with
      | some _, some (chomping, c) => (chomping, n, c)
      | _, _ => (.clip, n, c)
  let c := c.skipWhile isSpace
  let c := if c.sees '#' then c.skipWhile fun x => !isBreak x else c
  if c.endsLine 0 then
    some (chomping, increment, match c.lineBreak? with
      | some (_, next) => next
      | none => c)
  else none

/-- Reads indentation and empty lines before a line of a block scalar: the line breaks, and the
widest indentation seen.  With `indent` given, blanks beyond it belong to the text. -/
def blockGap (indent : Option Nat) : Nat → Nat → Cursor → Option (List Char × Nat × Cursor)
  | 0, _, _ => none
  | fuel + 1, widest, c =>
    let room := match indent with
      | some n => n - c.column
      | none => c.rest.length
    let run := (c.rest.take room).takeWhile (· = ' ')
    let c := c.skip run.length
    let widest := max widest c.column
    let short := match indent with
      | some n => c.column < n
      | none => true
    if short && c.sees '\t' then none
    else match c.lineBreak? with
      | some (x, next) =>
        (blockGap indent fuel widest next).map fun (xs, widest, last) => (x :: xs, widest, last)
      | none => some ([], widest, c)

/-- Reads the lines of a block scalar.  `first` is the break that ended the last line, `further` are
the empty lines after it, and `blank` tells whether the last line began with a blank. -/
def blockLines (isLiteral : Bool) (chomping : Chomping) (indent : Nat) :
    Nat → (first : List Char) → (further : List Char) → (blank : Bool) → Cursor →
      Option (List Char × Cursor)
  | 0, _, _, _, _ => none
  | fuel + 1, first, further, blank, c => do
    if c.column = indent && !c.atEnd then
      let indented := c.atSpace
      let folds := !isLiteral && first == ['\n'] && !blank && !indented
      let lead := if folds then (if further.isEmpty then [' '] else further) else first ++ further
      let (line, next) := c.span fun x => !isBreak x
      let (first, next) := match next.lineBreak? with
        | some (x, next) => ([x], next)
        | none => ([], next)
      let (further, _, next) ← blockGap (some indent) (next.rest.length + 1) 0 next
      let (more, last) ← blockLines isLiteral chomping indent fuel first further indented next
      some (lead ++ line ++ more, last)
    else
      some (match chomping with
        | .strip => []
        | .clip => first
        | .keep => first ++ further, c)

/-- Reads a block scalar after its introducing character. -/
def blockScalar (isLiteral : Bool) (floor : Nat) (c : Cursor) : Option (String × Cursor) := do
  let (chomping, increment, c) ← blockHeader c
  let fuel := c.rest.length + 1
  let (indent, further, c) ← match increment with
    | some n => do
      let indent := floor - 1 + n
      let (xs, _, c) ← blockGap (some indent) fuel 0 c
      some (indent, xs, c)
    | none => do
      let (xs, widest, c) ← blockGap none fuel 0 c
      some (max widest (max floor 1), xs, c)
  let (s, c) ← blockLines isLiteral chomping indent fuel [] further false c
  some (String.ofList s, c)

end PinKeeper.Yaml
