import PinKeeper.Json.Basic
import PinKeeper.Text.Float
import PinKeeper.Text.Hexadecimal

/-!
# Json/Reader — from text to JSON values

The reader is a recursive descent over the characters: each function takes the rest of the text and
gives a value with what is left after it.  The fuel of the recursion bounds the nesting and the
number of items together; one more than the length of the text is always enough, because every step
takes at least one character.
-/

namespace PinKeeper.Json

/-- Blanks between tokens. -/
def isGap (c : Char) : Bool := c = ' ' || c = '\t' || c = '\n' || c = '\r'

def skipGap (s : List Char) : List Char := s.dropWhile isGap

/-! ## Strings -/

/-- What one element of a string literal stands for: a character, or one half of a surrogate
pair. -/
inductive Piece where
  | char (c : Char)
  | half (unit : Nat)

/-- Element that a code unit denotes. -/
def Piece.ofUnit (n : Nat) : Piece :=
  if 0xD800 ≤ n && n ≤ 0xDFFF then .half n else .char (Char.ofNat n)

/-- Character for the letter of a two-character escape. -/
def shortEscape? (c : Char) : Option Char :=
  if c = '"' || c = '\\' || c = '/' then some c
  else if c = 'b' then some '\x08'
  else if c = 'f' then some '\x0c'
  else if c = 'n' then some '\n'
  else if c = 'r' then some '\r'
  else if c = 't' then some '\t'
  else none

/-- Reads the elements of a string literal up to its closing quote. -/
def pieces : List Char → Option (List Piece × List Char)
  | [] => none
  | '"' :: r => some ([], r)
  | '\\' :: 'u' :: a :: b :: c :: d :: r => do
    let unit ← Text.hexNumber? [a, b, c, d]
    let (ps, r) ← pieces r
    some (Piece.ofUnit unit :: ps, r)
  | '\\' :: c :: r => do
    let e ← shortEscape? c
    let (ps, r) ← pieces r
    some (.char e :: ps, r)
  | c :: r =>
    if c.toNat < 0x20 then none
    else do
      let (ps, r) ← pieces r
      some (.char c :: ps, r)

/-- Text of the elements, if each half of a surrogate pair has its other half. -/
def Piece.text? : List Piece → Option (List Char)
  | [] => some []
  | .char c :: ps => (Piece.text? ps).map (c :: ·)
  | .half a :: .half b :: ps =>
    if a < 0xDC00 && 0xDC00 ≤ b then
      (Piece.text? ps).map (Char.ofNat (0x10000 + (a - 0xD800) * 1024 + (b - 0xDC00)) :: ·)
    else none
  | .half _ :: _ => none

/-- Reads a string literal after its opening quote; the text is absent where it is unreadable. -/
def stringLiteral (s : List Char) : Option (Option String × List Char) :=
  (pieces s).map fun (ps, r) => ((Piece.text? ps).map String.ofList, r)

/-! ## Numbers -/

/-- Splits off the digits at the front. -/
def digitSpan (s : List Char) : List Char × List Char :=
  (s.takeWhile Char.isDigit, s.dropWhile Char.isDigit)

/-- Reads the whole part of a number: one zero, or digits that start with another one. -/
def wholePart (s : List Char) : Option (List Char × List Char) :=
  match digitSpan s with
  | ([], _) => none
  | (['0'], r) => some (['0'], r)
  | ('0' :: _, _) => none
  | (ds, r) => some (ds, r)

/-- Reads the digits after a point; there is no part without a point. -/
def fractionPart : List Char → Option (Option (List Char) × List Char)
  | '.' :: r => match digitSpan r with
    | ([], _) => none
    | (ds, r) => some (some ds, r)
  | r => some (none, r)

/-- Reads the sign and the digits of an exponent after its letter. -/
def exponentDigits (s : List Char) : Option ((Bool × List Char) × List Char) :=
  let (negative, r) := match s with
    | '-' :: r => (true, r)
    | '+' :: r => (false, r)
    | r => (false, r)
  match digitSpan r with
  | ([], _) => none
  | (ds, r) => some ((negative, ds), r)

/-- Reads an exponent; there is none without its letter. -/
def exponentPart : List Char → Option (Option (Bool × List Char) × List Char)
  | 'e' :: r => (exponentDigits r).map fun (e, r) => (some e, r)
  | 'E' :: r => (exponentDigits r).map fun (e, r) => (some e, r)
  | r => some (none, r)

/-- Value of a number from its parts. -/
def numberOf (negative : Bool) (whole : List Char) (part : Option (List Char))
    (power : Option (Bool × List Char)) : Json :=
  match part, power with
  | none, none =>
    let n := Text.ofDigits whole
    if negative && n = 0 then .decimal "-0.0"
    else if Text.overflows whole 0 then .unreadable
    else .int (if negative then -(n : Int) else n)
  | _, _ =>
    let places := part.getD []
    let scale : Int := match power with
      | some (negative, ds) => if negative then -(Text.ofDigits ds : Int) else Text.ofDigits ds
      | none => 0
    if Text.overflows (whole ++ places) (scale - places.length) then .unreadable
    else
      let sign := if negative then "-" else ""
      let places := match part with
        | some ds => "." ++ String.ofList ds
        | none => ""
      let power := match power with
        | some (negative, ds) => "e" ++ (if negative then "-" else "") ++ String.ofList ds
        | none => ""
      .decimal (sign ++ String.ofList whole ++ places ++ power)

/-- Reads a number. -/
def number (s : List Char) : Option (Json × List Char) := do
  let (negative, r) := match s with
    | '-' :: r => (true, r)
    | r => (false, r)
  let (whole, r) ← wholePart r
  let (part, r) ← fractionPart r
  let (power, r) ← exponentPart r
  some (numberOf negative whole part power, r)

/-! ## Values -/

/-- Object from its members, unreadable if a key is. -/
def objectOf (members : List (Option String × Json)) : Json :=
  match members.mapM (fun m => m.1.map fun k => (k, m.2)) with
  | some ms => .object ms
  | none => .unreadable

mutual

/-- Reads a value after optional blanks. -/
def value : Nat → List Char → Option (Json × List Char)
  | 0, _ => none
  | fuel + 1, s =>
    match skipGap s with
    | '{' :: r =>
      match skipGap r with
      | '}' :: r => some (.object [], r)
      | r => (members fuel r).map fun (ms, r) => (objectOf ms, r)
    | '[' :: r =>
      match skipGap r with
      | ']' :: r => some (.array [], r)
      | r => (items fuel r).map fun (vs, r) => (.array vs, r)
    | '"' :: r =>
      (stringLiteral r).map fun (t, r) =>
        (match t with
          | some s => .text s
          | none => .unreadable, r)
    | 't' :: 'r' :: 'u' :: 'e' :: r => some (.bool true, r)
    | 'f' :: 'a' :: 'l' :: 's' :: 'e' :: r => some (.bool false, r)
    | 'n' :: 'u' :: 'l' :: 'l' :: r => some (.null, r)
    | r => number r

/-- Reads the items of an array up to its closing bracket; there is at least one. -/
def items : Nat → List Char → Option (List Json × List Char)
  | 0, _ => none
  | fuel + 1, s => do
    let (v, r) ← value fuel s
    match skipGap r with
    | ',' :: r => do
      let (vs, r) ← items fuel r
      some (v :: vs, r)
    | ']' :: r => some ([v], r)
    | _ => none

/-- Reads the members of an object up to its closing brace; there is at least one. -/
def members : Nat → List Char → Option (List (Option String × Json) × List Char)
  | 0, _ => none
  | fuel + 1, s =>
    match skipGap s with
    | '"' :: r => do
      let (key, r) ← stringLiteral r
      match skipGap r with
      | ':' :: r => do
        let (v, r) ← value fuel r
        match skipGap r with
        | ',' :: r => do
          let (ms, r) ← members fuel r
          some ((key, v) :: ms, r)
        | '}' :: r => some ([(key, v)], r)
        | _ => none
      | _ => none
    | _ => none

end

/-- Reads a text that holds one value, with blanks around it. -/
def parse? (text : String) : Option Json :=
  let s := text.toList
  match value (s.length + 1) s with
  | some (v, r) => if (skipGap r).isEmpty then some v else none
  | none => none

end PinKeeper.Json
