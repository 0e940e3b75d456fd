/-!
# Text/Rounding — quotients rounded to nearest, to binary and to decimal places

`roundDiv` is the quotient of two naturals rounded to the nearest integer, a tie to the even
neighbour.  `significant` rounds a quotient to 53 binary digits, which is what a division of two
counts keeps when it is carried out in double precision, and `fixed` writes a quotient with a given
number of decimal places.  Everything is exact arithmetic on naturals.
-/

namespace PinKeeper.Text

/-- Quotient rounded to the nearest natural, a tie to the even one. -/
def roundDiv (num den : Nat) : Nat :=
  let q := num / den
  let r := num % den
  if den < 2 * r || (2 * r == den && q % 2 == 1) then q + 1 else q

/-- Quotient with a numerator and a denominator. -/
structure Ratio where
  num : Nat
  den : Nat
deriving DecidableEq, Repr

/-- Rounds a quotient of at least one to 53 binary digits, a tie to the even neighbour. -/
def Ratio.significant (r : Ratio) : Ratio :=
  let width := Nat.log2 (r.num / r.den) + 1
  if width ≤ 53 then
    ⟨roundDiv (r.num * Nat.pow 2 (53 - width)) r.den, Nat.pow 2 (53 - width)⟩
  else
    ⟨roundDiv r.num (r.den * Nat.pow 2 (width - 53)) * Nat.pow 2 (width - 53), 1⟩

/-- Digits of a quotient with a number of decimal places, a tie to the even neighbour. -/
def Ratio.fixed (places : Nat) (r : Ratio) : Nat × Nat :=
  let scaled := roundDiv (r.num * Nat.pow 10 places) r.den
  (scaled / Nat.pow 10 places, scaled % Nat.pow 10 places)

end PinKeeper.Text
