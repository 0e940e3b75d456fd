import PinKeeper.Text.Decimal

/-!
# Text/Float — decimal numbers with a fraction or an exponent

Nothing here computes with such a number: the questions are whether a text is one, and whether its
magnitude is below that of every double-precision number (`overflows`).
-/

namespace PinKeeper.Text

/-- Least magnitude that no finite double-precision number reaches. -/
def infinity : Nat := Nat.pow 2 1024 - Nat.pow 2 970

/-- True if digits scaled by a power of ten exceed every finite double-precision number. -/
def overflows (digits : List Char) (exponent : Int) : Bool :=
  let m := ofDigits digits
  if m = 0 then false
  else
    let order : Int := (Text.digits m).length + exponent
    if 310 < order then true
    else if order < 300 then false
    else if 0 ≤ exponent then infinity ≤ m * Nat.pow 10 exponent.toNat
    else infinity * Nat.pow 10 exponent.natAbs ≤ m

/-- Reads an exponent after its letter: an optional sign and at least one digit. -/
def exponent? (s : List Char) : Option Int :=
  let (negative, ds) := match s with
    | '-' :: r => (true, r)
    | '+' :: r => (false, r)
    | r => (false, r)
  (ofDigits? ds).map fun n => if negative then -(n : Int) else n

/-- True if a text is a decimal number: an optional sign, digits with at most one point among or
around them, and an optional exponent; and if it is below the least infinite magnitude. -/
def isFiniteDecimal (s : List Char) : Bool :=
  let s := match s with
    | '-' :: r => r
    | '+' :: r => r
    | r => r
  let whole := s.takeWhile Char.isDigit
  let rest := s.dropWhile Char.isDigit
  let (places, rest) := match rest with
    | '.' :: r => (r.takeWhile Char.isDigit, r.dropWhile Char.isDigit)
    | r => ([], r)
  if whole.isEmpty && places.isEmpty then false
  else
    let power := match rest with
      | [] => some 0
      | c :: r => if c = 'e' || c = 'E' then exponent? r else none
    match power with
    | some p => !overflows (whole ++ places) (p - places.length)
    | none => false

end PinKeeper.Text
