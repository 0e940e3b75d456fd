/-!
# Yaml/Cursor — a place in a text, with the line and the column it stands in

A `Cursor` is what is left of a text together with the count of the characters, the lines and the
columns before it.  A line ends with a carriage return, a line feed, both of them together, a next
line, a line separator or a paragraph separator; the first four count as one and the same break.
-/

namespace PinKeeper.Yaml

/-- Space or tab. -/
def isSpace (c : Char) : Bool := c = ' ' || c = '\t'

/-- Character that ends a line. -/
def isBreak (c : Char) : Bool :=
  c = '\n' || c = '\r' || c.toNat = 0x85 || c.toNat = 0x2028 || c.toNat = 0x2029

/-- ASCII letter, digit, underscore or hyphen. -/
def isWord (c : Char) : Bool := c.isAlphanum || c = '_' || c = '-'

/-- Character that a text may hold: no control character but tab and line breaks. -/
def isAllowed (c : Char) : Bool :=
  let n := c.toNat
  n == 9 || n == 10 || n == 13 || (0x20 ≤ n && n ≤ 0x7E) || n == 0x85 ||
    (0xA0 ≤ n && n ≤ 0xD7FF) || (0xE000 ≤ n && n ≤ 0xFFFD) || 0x10000 ≤ n

/-- Place in a text. -/
structure Cursor where
  rest : List Char
  index : Nat
  line : Nat
  column : Nat

namespace Cursor

/-- Start of a text. -/
def start (text : List Char) : Cursor := ⟨text, 0, 0, 0⟩

/-- Character at a distance. -/
def peek (c : Cursor) (ahead : Nat) : Option Char := c.rest[ahead]?

/-- True if the character at hand is the given one. -/
def sees (c : Cursor) (x : Char) : Bool := c.peek 0 == some x

/-- True at the end of the text. -/
def atEnd (c : Cursor) : Bool := c.rest.isEmpty

/-- True if the character at a distance is a line break or there is none. -/
def endsLine (c : Cursor) (ahead : Nat) : Bool :=
  match c.peek ahead with
  | some x => isBreak x
  | none => true

/-- True if the character at a distance is blank, a line break, or absent. -/
def endsWord (c : Cursor) (ahead : Nat) : Bool :=
  match c.peek ahead with
  | some x => isSpace x || isBreak x
  | none => true

/-- True if a space or a tab is at hand. -/
def atSpace (c : Cursor) : Bool := (c.peek 0).any isSpace

/-- True if a line break is at hand. -/
def atBreak (c : Cursor) : Bool := (c.peek 0).any isBreak

/-- Moves over characters of one line. -/
def skip (c : Cursor) (n : Nat) : Cursor :=
  { c with rest := c.rest.drop n, index := c.index + n, column := c.column + n }

/-- Splits off the characters of one kind; the kind holds no line break. -/
def span (kind : Char → Bool) (c : Cursor) : List Char × Cursor :=
  let run := c.rest.takeWhile kind
  (run, c.skip run.length)

/-- Moves over the characters of one kind. -/
def skipWhile (kind : Char → Bool) (c : Cursor) : Cursor := (c.span kind).2

/-- Moves over a line break, giving the character that it counts as. -/
def lineBreak? (c : Cursor) : Option (Char × Cursor) :=
  let next (n : Nat) : Cursor := ⟨c.rest.drop n, c.index + n, c.line + 1, 0⟩
  match c.rest with
  | '\r' :: '\n' :: _ => some ('\n', next 2)
  | x :: _ =>
    if x.toNat = 0x2028 || x.toNat = 0x2029 then some (x, next 1)
    else if isBreak x then some ('\n', next 1)
    else none
  | [] => none

/-- True at three equal marks, hyphens or points, that stand alone at the start of a line. -/
def atDocumentMark (c : Cursor) (mark : Char) : Bool :=
  c.column == 0 && c.rest.take 3 == [mark, mark, mark] && c.endsWord 3

end Cursor

end PinKeeper.Yaml
