/-!
# Text/Decimal — whole numbers written in decimal digits

`digits n` is the canonical text of a number, `ofDigits` reads digits back.  `natural?` is the
reading of settings and counters: an optional plus sign, at least one digit, nothing else, and a
value that fits the width asked for.
-/

namespace PinKeeper.Text

/-- Value of an ASCII digit. -/
def digitValue (c : Char) : Nat := c.toNat - '0'.toNat

/-- Digit for a value below ten. -/
def digitChar (d : Nat) : Char := Char.ofNat ('0'.toNat + d)

/-- Number that a run of digits denotes. -/
def ofDigits (cs : List Char) : Nat := cs.foldl (fun n c => 10 * n + digitValue c) 0

/-- Decimal digits of a number, most significant first and without leading zeros. -/
def digits (n : Nat) : List Char :=
  if n < 10 then [digitChar n] else digits (n / 10) ++ [digitChar (n % 10)]
termination_by n
decreasing_by omega

/-- Decimal text of a natural number. -/
def natural (n : Nat) : String := String.ofList (digits n)

/-- Decimal text of an integer. -/
def integer (i : Int) : String :=
  if i < 0 then "-" ++ natural i.natAbs else natural i.natAbs

/-- Decimal text with zeros in front up to a width. -/
def zeroPadded (width n : Nat) : String :=
  let ds := digits n
  String.ofList (List.replicate (width - ds.length) '0' ++ ds)

/-- Reads one or more digits and nothing else. -/
def ofDigits? (cs : List Char) : Option Nat :=
  if cs.isEmpty || !cs.all Char.isDigit then none else some (ofDigits cs)

/-- Reads a natural number of at most `max`: an optional plus sign, then digits only. -/
def natural? (max : Nat) (s : String) : Option Nat :=
  let body := match s.toList with
    | '+' :: cs => cs
    | cs => cs
  match ofDigits? body with
  | some n => if n ≤ max then some n else none
  | none => none

/-- Largest number of 16 bits. -/
def max16 : Nat := 65535

/-- Largest number of 32 bits. -/
def max32 : Nat := 4294967295

/-- Largest number of 64 bits. -/
def max64 : Nat := 18446744073709551615

/-- Largest number of 128 bits. -/
def max128 : Nat := 340282366920938463463374607431768211455

/-- Least signed number of 64 bits. -/
def min64 : Int := -9223372036854775808

/-- Least signed number of 128 bits. -/
def min128 : Int := -170141183460469231731687303715884105728

end PinKeeper.Text
