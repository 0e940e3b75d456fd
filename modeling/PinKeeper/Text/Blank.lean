/-!
# Text/Blank — white space, trimming and lines

The white space of a text is that of the character database (`isBlank`), wider than the ASCII
blanks: a no-break space or an ideographic space counts.  Trimming takes it off both ends.
-/

namespace PinKeeper.Text

/-- White space: the code points with the White_Space property. -/
def isBlank (c : Char) : Bool :=
  let n := c.toNat
  (9 ≤ n && n ≤ 13) || n == 32 || n == 0x85 || n == 0xA0 || n == 0x1680 ||
    (0x2000 ≤ n && n ≤ 0x200A) || n == 0x2028 || n == 0x2029 || n == 0x202F || n == 0x205F ||
    n == 0x3000

/-- Drops leading white space. -/
def trimLeft (s : List Char) : List Char := s.dropWhile isBlank

/-- Drops trailing white space. -/
def trimRight (s : List Char) : List Char := (s.reverse.dropWhile isBlank).reverse

/-- Drops white space at both ends. -/
def trim (s : List Char) : List Char := trimRight (trimLeft s)

/-- Text without the white space at its ends. -/
def trimmed (s : String) : String := String.ofList (trim s.toList)

/-- Splits at every occurrence of a character; there is one piece more than there are
occurrences. -/
def splitAt (sep : Char) : List Char → List (List Char)
  | [] => [[]]
  | c :: cs =>
    if c = sep then [] :: splitAt sep cs
    else
      match splitAt sep cs with
      | [] => [[c]]
      | p :: ps => (c :: p) :: ps

theorem splitAt_ne_nil (sep : Char) : ∀ s, splitAt sep s ≠ []
  | [] => by simp [splitAt]
  | c :: cs => by
    unfold splitAt
    split
    · simp
    · split <;> simp

/-- Drops one carriage return at the end of a line. -/
def dropReturn (line : List Char) : List Char :=
  match line.reverse with
  | '\r' :: rest => rest.reverse
  | _ => line

/-- Lines of a text: what stands between line feeds, each without a closing carriage return. -/
def lines (s : List Char) : List (List Char) := (splitAt '\n' s).map dropReturn

/-- True if a text begins with the given characters. -/
def startsWith (s start : String) : Bool := start.toList.isPrefixOf s.toList

/-- Joins texts with a separator between neighbours. -/
def joined (sep : String) (parts : List String) : String := String.intercalate sep parts

/-- Repeats a character. -/
def replicated (n : Nat) (c : Char) : String := String.ofList (List.replicate n c)

end PinKeeper.Text
