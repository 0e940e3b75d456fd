import PinKeeper.Outline
import PinKeeper.Text.Decimal
import PinKeeper.Toml.Reader

/-!
# Toml/Printer — an outline as a text of tables

The texts and numbers of a group come first, each on a line, then its groups, each under a header
with its path; a group that holds nothing but groups has no header.  A text stands between quotes
with escapes, unless it has a quote or a backslash and can be written without any escape; one with a
line feed is written over several lines.  An integer beyond 63 bits cannot be written.
-/

namespace PinKeeper.Toml

/-! ## Strings and keys -/

/-- Hexadecimal digit in upper case. -/
def upperHexDigit (n : Nat) : Char :=
  if n < 10 then Char.ofNat ('0'.toNat + n) else Char.ofNat ('A'.toNat + (n - 10))

/-- Characters that write one character of a string; a line feed stands for itself where the string
has several lines. -/
def escaped (multiline : Bool) (c : Char) : List Char :=
  if c = '\x08' then ['\\', 'b']
  else if c = '\t' then ['\\', 't']
  else if c = '\n' then (if multiline then ['\n'] else ['\\', 'n'])
  else if c = '\x0c' then ['\\', 'f']
  else if c = '\r' then ['\\', 'r']
  else if c = '"' then ['\\', '"']
  else if c = '\\' then ['\\', '\\']
  else if c.toNat < 0x20 || c.toNat = 0x7F then
    ['\\', 'u', '0', '0', upperHexDigit (c.toNat / 16), upperHexDigit (c.toNat % 16)]
  else [c]

/-- True if a text has a quote or a backslash, which would need an escape. -/
def needsEscape (s : List Char) : Bool := s.any fun c => c = '"' || c = '\\'

/-- True if a text has three single quotes in a row. -/
def hasTripleQuote : List Char → Bool
  | '\'' :: '\'' :: '\'' :: _ => true
  | _ :: r => hasTripleQuote r
  | [] => false

/-- True if a text can stand between single quotes as it is. -/
def standsLiteral (s : List Char) : Bool :=
  s.all (fun c => c = '\n' || c = '\t' || (0x20 ≤ c.toNat && c.toNat ≠ 0x7F)) &&
    !hasTripleQuote s && s.getLast? != some '\''

/-- String of a text. -/
def quoted (s : List Char) : List Char :=
  let multiline := s.contains '\n'
  if needsEscape s && standsLiteral s then
    if multiline then "'''\n".toList ++ s ++ "'''".toList
    else if s.contains '\'' then "'''".toList ++ s ++ "'''".toList
    else '\'' :: s ++ ['\'']
  else if multiline then "\"\"\"\n".toList ++ s.flatMap (escaped true) ++ "\"\"\"".toList
  else '"' :: s.flatMap (escaped false) ++ ['"']

/-- Key: as it is, or quoted. -/
def printedKey (k : String) : List Char :=
  let s := k.toList
  if !s.isEmpty && s.all isBareKey then s
  else if needsEscape s && s.all (fun c => isCommentChar c && c != '\'') then
    '\'' :: s ++ ['\'']
  else '"' :: s.flatMap (escaped false) ++ ['"']

/-! ## Tables -/

/-- Lines of the texts and numbers of a group. -/
def printedValues : List (String × Outline) → Option (List Char)
  | [] => some []
  | (k, .text s) :: ms => do
    some (printedKey k ++ " = ".toList ++ quoted s.toList ++ '\n' :: (← printedValues ms))
  | (k, .number n) :: ms => do
    if maxInt < n then none
    else some (printedKey k ++ " = ".toList ++ Text.digits n ++ '\n' :: (← printedValues ms))
  | (_, .group _) :: ms => printedValues ms

/-- Header of a table. -/
def printedHeader (path : List String) : List Char :=
  '[' :: (List.intercalate ['.'] (path.map printedKey)) ++ [']', '\n']

mutual

/-- Blocks of a group and of the groups in it, each with its header and its lines. -/
def printedGroup (path : List String) : Outline → Option (List (List Char))
  | .group ms => do
    let own ← printedValues ms
    let inner ← printedGroups path ms
    if own.isEmpty && !inner.isEmpty then some inner
    else some ((printedHeader path ++ own) :: inner)
  | _ => some []

/-- Blocks of the groups among some members. -/
def printedGroups (path : List String) : List (String × Outline) → Option (List (List Char))
  | [] => some []
  | (k, o) :: ms => do some ((← printedGroup (path ++ [k]) o) ++ (← printedGroups path ms))

end

/-- Text of an outline. -/
def print? (members : List (String × Outline)) : Option String := do
  let own ← printedValues members
  let inner ← printedGroups [] members
  let blocks := if own.isEmpty then inner else own :: inner
  some (String.ofList (List.intercalate ['\n'] blocks))

end PinKeeper.Toml
