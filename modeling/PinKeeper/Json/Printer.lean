import PinKeeper.Json.Basic
import PinKeeper.Text.Decimal
import PinKeeper.Text.Hexadecimal

/-!
# Json/Printer — from JSON values to text

Two layouts: `compact` writes no blanks, `pretty` writes each item on a line of its own, indented by
two blanks for each open container, and nothing inside an empty one.  In strings the quote, the
backslash and the control characters below the blank are escaped; all else stands for itself.
-/

namespace PinKeeper.Json

/-- Characters that write one character of a text. -/
def escaped (c : Char) : List Char :=
  if c = '"' then ['\\', '"']
  else if c = '\\' then ['\\', '\\']
  else if c = '\n' then ['\\', 'n']
  else if c = '\r' then ['\\', 'r']
  else if c = '\t' then ['\\', 't']
  else if c = '\x08' then ['\\', 'b']
  else if c = '\x0c' then ['\\', 'f']
  else if c.toNat < 0x20 then
    ['\\', 'u', '0', '0', Text.hexLower (c.toNat / 16), Text.hexLower (c.toNat % 16)]
  else [c]

/-- String literal of a text. -/
def quoted (s : String) : List Char := '"' :: s.toList.flatMap escaped ++ ['"']

/-- Text of a value without parts. -/
def scalar : Json → List Char
  | .null => "null".toList
  | .bool true => "true".toList
  | .bool false => "false".toList
  | .int i => (Text.integer i).toList
  | .decimal s => s.toList
  | .text s => quoted s
  | _ => "null".toList

/-! ## Without blanks -/

mutual

/-- Characters of a value, without blanks. -/
def compactChars : Json → List Char
  | .array [] => ['[', ']']
  | .array (v :: vs) => '[' :: compactChars v ++ compactItems vs
  | .object [] => ['{', '}']
  | .object ((k, v) :: ms) => '{' :: quoted k ++ ':' :: compactChars v ++ compactMembers ms
  | v => scalar v

/-- Characters of the further items of an array and its closing bracket. -/
def compactItems : List Json → List Char
  | [] => [']']
  | v :: vs => ',' :: compactChars v ++ compactItems vs

/-- Characters of the further members of an object and its closing brace. -/
def compactMembers : List (String × Json) → List Char
  | [] => ['}']
  | (k, v) :: ms => ',' :: quoted k ++ ':' :: compactChars v ++ compactMembers ms

end

/-- Text of a value, without blanks. -/
def compact (v : Json) : String := String.ofList (compactChars v)

/-! ## One item a line -/

/-- Line feed and the indentation for a number of open containers. -/
def newline (depth : Nat) : List Char := '\n' :: List.replicate (2 * depth) ' '

mutual

/-- Characters of a value inside `depth` open containers. -/
def prettyChars (depth : Nat) : Json → List Char
  | .array [] => ['[', ']']
  | .array (v :: vs) =>
    '[' :: newline (depth + 1) ++ prettyChars (depth + 1) v ++ prettyItems depth vs
  | .object [] => ['{', '}']
  | .object ((k, v) :: ms) =>
    '{' :: newline (depth + 1) ++ quoted k ++ ':' :: ' ' :: prettyChars (depth + 1) v ++
      prettyMembers depth ms
  | v => scalar v

/-- Characters of the further items of an array and its closing bracket. -/
def prettyItems (depth : Nat) : List Json → List Char
  | [] => newline depth ++ [']']
  | v :: vs => ',' :: newline (depth + 1) ++ prettyChars (depth + 1) v ++ prettyItems depth vs

/-- Characters of the further members of an object and its closing brace. -/
def prettyMembers (depth : Nat) : List (String × Json) → List Char
  | [] => newline depth ++ ['}']
  | (k, v) :: ms =>
    ',' :: newline (depth + 1) ++ quoted k ++ ':' :: ' ' :: prettyChars (depth + 1) v ++
      prettyMembers depth ms

end

/-- Text of a value, one item a line. -/
def pretty (v : Json) : String := String.ofList (prettyChars 0 v)

end PinKeeper.Json
