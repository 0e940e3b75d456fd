import PinKeeper.Outline
import PinKeeper.Yaml.Resolve

/-!
# Yaml/Printer — an outline as a document

Each member stands on a line of its own, two blanks deeper than the group around it.  A text is
written plain where that reads back as the same text, else between single quotes, else between
double quotes with escapes; one with line feeds becomes a literal block.  A key that spans lines or
is longer than `maxSimpleKey` is introduced by a question mark, and its value by a colon on the
next line.
-/

namespace PinKeeper.Yaml

/-! ## What a text looks like -/

/-- Character that needs no escape. -/
def isPrintable (c : Char) : Bool :=
  let n := c.toNat
  n == 0x0A || (0x20 ≤ n && n ≤ 0x7E) || (0xA0 ≤ n && n != 0xFEFF && n != 0xFFFE && n != 0xFFFF)

/-- True if some two neighbours satisfy a condition. -/
def anyNeighbours (p : Char → Char → Bool) (s : List Char) : Bool :=
  (s.zip (s.drop 1)).any fun (a, b) => p a b

/-- True if a character that means something at the start of a scalar starts the text. -/
def startsIndicator (s : List Char) : Bool :=
  let ends := match s with
    | _ :: x :: _ => isSpace x || isBreak x
    | _ => true
  match s with
  | x :: _ => "#,[]\x7b\x7d&*!|>'\"%@\x60".toList.contains x || ("?:-".toList.contains x && ends)
  | [] => false

/-- True if a mark inside of the text would end it or begin a comment. -/
def hasIndicator (s : List Char) : Bool :=
  let inner := s.drop 1
  inner.getLast? == some ':' ||
    anyNeighbours (fun a b => a = ':' && (isSpace b || isBreak b)) inner ||
    anyNeighbours (fun a b => (isSpace a || isBreak a) && b = '#') s

/-- True if the text begins like the mark of a document. -/
def startsDocument (s : List Char) : Bool :=
  s.take 3 == ['-', '-', '-'] || s.take 3 == ['.', '.', '.']

/-- True if the text begins or ends with a blank or a line break. -/
def hasLooseEnd (s : List Char) : Bool :=
  let loose (c : Char) : Bool := c = ' ' || isBreak c
  s.head?.any loose || s.getLast?.any loose

/-- True if a blank stands before a line break. -/
def hasBlankEnd (s : List Char) : Bool := anyNeighbours (fun a b => a = ' ' && isBreak b) s

/-- True if a blank stands after a line break. -/
def hasBlankStart (s : List Char) : Bool := anyNeighbours (fun a b => isBreak a && b = ' ') s

/-- True if every character can be written as it is. -/
def isClean (s : List Char) : Bool := s.all isPrintable && !hasBlankEnd s

/-- True if the text may be written without quotes. -/
def standsPlain (s : List Char) : Bool :=
  !s.any isBreak && isClean s && !hasLooseEnd s && !startsIndicator s && !hasIndicator s &&
    !startsDocument s

/-- True if the text may be written between single quotes. -/
def standsSingle (s : List Char) : Bool := isClean s && !hasBlankStart s

/-- True if the text may be written as a block. -/
def standsBlock (s : List Char) : Bool := isClean s && s.getLast? != some ' '

/-! ## Forms of a text -/

/-- Form in which a text is written. -/
inductive Form where
  | plain
  | single
  | double
  | literal
deriving DecidableEq, Repr

/-- Form of a text. -/
def formOf (s : String) : Form :=
  let cs := s.toList
  let quoted : Form := if standsSingle cs then .single else .double
  if cs.contains '\n' then (if standsBlock cs then .literal else .double)
  else if meaning s != .text || isZeroRun s then quoted
  else if standsPlain cs then .plain
  else quoted

/-- Hexadecimal digits in upper case, most significant first. -/
def hexDigits : (width : Nat) → Nat → List Char
  | 0, _ => []
  | width + 1, n =>
    hexDigits width (n / 16) ++ [Text.hexUpper (n % 16)]

/-- Characters that write one character between double quotes. -/
def doubleEscaped (c : Char) : List Char :=
  let n := c.toNat
  match ([(0, '0'), (7, 'a'), (8, 'b'), (9, 't'), (10, 'n'), (11, 'v'), (12, 'f'), (13, 'r'),
      (0x1B, 'e'), (0x22, '"'), (0x5C, '\\'), (0x85, 'N'), (0x2028, 'L'), (0x2029, 'P')] :
      List (Nat × Char)).lookup n with
  | some letter => ['\\', letter]
  | none =>
    if isPrintable c then [c]
    else if n ≤ 0xFF then '\\' :: 'x' :: hexDigits 2 n
    else if n ≤ 0xFFFF then '\\' :: 'u' :: hexDigits 4 n
    else '\\' :: 'U' :: hexDigits 8 n

/-- Blanks at the start of a line. -/
def indentation (n : Nat) : List Char := List.replicate n ' '

/-- Characters between single quotes: a quote is written twice, and a line break starts a line with
the indentation. -/
def singleChars (indent : Nat) (afterBreak : Bool) : List Char → List Char
  | [] => if afterBreak then indentation indent else []
  | c :: cs =>
    if isBreak c then
      (if !afterBreak && c = '\n' then ['\n'] else []) ++ c :: singleChars indent true cs
    else
      (if afterBreak then indentation indent else []) ++
        (if c = '\'' then ['\'', '\''] else [c]) ++ singleChars indent false cs

/-- Lines of a block, indented where they are not empty. -/
def blockChars (indent : Nat) (afterBreak : Bool) : List Char → List Char
  | [] => []
  | c :: cs =>
    if isBreak c then c :: blockChars indent true cs
    else (if afterBreak then indentation indent else []) ++ c :: blockChars indent false cs

/-- What is said about the last line breaks of a block. -/
def chompingMark (s : List Char) : List Char :=
  match s.reverse with
  | [] => ['-']
  | c :: cs =>
    if !isBreak c then ['-']
    else match cs with
      | [] => ['+']
      | d :: _ => if isBreak d then ['+'] else []

/-- What introduces a block: the indentation where the text begins with a blank, and the mark of its
end. -/
def blockMarks (s : List Char) : List Char :=
  '|' :: (if s.head?.any (fun c => c = ' ' || isBreak c) then ['2'] else []) ++ chompingMark s

/-- Characters of a text, with the indentation of further lines. -/
def scalarChars (indent : Nat) (s : String) : List Char :=
  let cs := s.toList
  match formOf s with
  | .plain => cs
  | .single => '\'' :: singleChars indent false cs ++ ['\'']
  | .double => '"' :: cs.flatMap doubleEscaped ++ ['"']
  | .literal => blockMarks cs ++ '\n' :: blockChars indent true cs

/-- Ends the line, unless the text before ended with a line break. -/
def endLine (written : List Char) : List Char :=
  if written.getLast?.any isBreak then written else written ++ ['\n']

/-! ## Members -/

/-- Longest key, in bytes, that needs no mark of its own. -/
def maxSimpleKey : Nat := 128

/-- True if a key can stand on one line with its colon. -/
def isSimpleKey (k : String) : Bool := !k.toList.any isBreak && k.utf8ByteSize ≤ maxSimpleKey

/-- What stands before the value of a member: the key and its colon. -/
def keyChars (indent : Nat) (k : String) : List Char :=
  if isSimpleKey k then scalarChars (indent + 2) k ++ [':']
  else '?' :: ' ' :: endLine (scalarChars (indent + 2) k) ++ indentation indent ++ [':']

mutual

/-- Lines of a member, the first without its indentation. -/
def memberChars (indent : Nat) (k : String) : Outline → List Char
  | .text s => endLine (keyChars indent k ++ ' ' :: scalarChars (indent + 2) s)
  | .number n => keyChars indent k ++ ' ' :: Text.digits n ++ ['\n']
  | .group [] => keyChars indent k ++ " \x7b\x7d\n".toList
  | .group ((j, o) :: ms) =>
    let lead := if isSimpleKey k then '\n' :: indentation (indent + 2) else [' ']
    keyChars indent k ++ lead ++ memberChars (indent + 2) j o ++ membersChars (indent + 2) ms

/-- Lines of several members. -/
def membersChars (indent : Nat) : List (String × Outline) → List Char
  | [] => []
  | (k, o) :: ms => indentation indent ++ memberChars indent k o ++ membersChars indent ms

end

/-! ## The end of the document -/

mutual

/-- Whether the last block of an outline keeps the line breaks at its end; `before` is the answer
for what comes before it. -/
def keepsBreaks (before : Bool) : Outline → Bool
  | .text s => blockKeeps before s
  | .number _ => before
  | .group ms => membersKeepBreaks before ms

/-- Whether the last block among members keeps the line breaks at its end. -/
def membersKeepBreaks (before : Bool) : List (String × Outline) → Bool
  | [] => before
  | (k, o) :: ms => membersKeepBreaks (keepsBreaks (blockKeeps before k) o) ms

/-- Whether a text is a block that keeps the line breaks at its end; a text in another form leaves
the answer as it was. -/
def blockKeeps (before : Bool) (s : String) : Bool :=
  if formOf s = .literal then chompingMark s.toList == ['+'] else before

end

/-- Text of an outline.  A document whose last block keeps the line breaks at its end is closed with
a mark. -/
def print (members : List (String × Outline)) : String :=
  String.ofList (membersChars 0 members ++
    if membersKeepBreaks false members then "...\n".toList else [])

end PinKeeper.Yaml
