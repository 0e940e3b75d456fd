import PinKeeper.Text.Blank
import PinKeeper.Text.Hexadecimal

/-!
# Text/Shown — a text in quotes, with what cannot be seen spelled out

For reports to a reader: quotes and backslashes are escaped, control and format characters are
given by their code, and a combining character does not attach itself to the quote.
-/

namespace PinKeeper.Text

/-- Hexadecimal digits of a number in lower case, without leading zeros. -/
def hexadecimal (n : Nat) : List Char :=
  if n < 16 then [hexLower n] else hexadecimal (n / 16) ++ [hexLower (n % 16)]
termination_by n
decreasing_by omega

/-- True for a character that leaves no mark of its own: control, format and private characters,
blanks other than the space, and combining marks. -/
def isUnseen (c : Char) : Bool :=
  let n := c.toNat
  n < 0x20 || (0x7F ≤ n && n ≤ 0xA0) || n == 0xAD || (0x300 ≤ n && n ≤ 0x36F) ||
    (c != ' ' && isBlank c) || (0x200B ≤ n && n ≤ 0x200F) || (0x2028 ≤ n && n ≤ 0x202E) ||
    (0x2060 ≤ n && n ≤ 0x206F) || (0xE000 ≤ n && n ≤ 0xF8FF) || (0xFE00 ≤ n && n ≤ 0xFE0F) ||
    n == 0xFEFF || (0xFFF0 ≤ n && n ≤ 0xFFFB) || 0xE0000 ≤ n

/-- Characters that show one character. -/
def shownChar (c : Char) : List Char :=
  if c = '"' then ['\\', '"']
  else if c = '\\' then ['\\', '\\']
  else if c = '\n' then ['\\', 'n']
  else if c = '\r' then ['\\', 'r']
  else if c = '\t' then ['\\', 't']
  else if c.toNat = 0 then ['\\', '0']
  else if isUnseen c then "\\u\x7b".toList ++ hexadecimal c.toNat ++ ['}']
  else [c]

/-- Text in quotes. -/
def shown (s : String) : String := String.ofList ('"' :: s.toList.flatMap shownChar ++ ['"'])

end PinKeeper.Text
