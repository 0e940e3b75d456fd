import PinKeeper.Text.Float
import PinKeeper.Yaml.Scalar

/-!
# Yaml/Resolve — what an unquoted text means

A plain scalar is null, a truth value, a number or, if it is none of these, a text (`meaning`).  A
writer uses the same rules to find out which texts have to be quoted.
-/

namespace PinKeeper.Yaml

/-- What a scalar means; `tooLarge` is a whole number beyond 64 bits. -/
inductive Meaning where
  | null
  | truth (value : Bool)
  | natural (value : Nat)
  | negative (value : Int)
  | tooLarge
  | float
  | text
deriving DecidableEq, Repr

/-- Names of null. -/
def isNull (s : String) : Bool := ["null", "Null", "NULL", "~"].contains s

/-- Truth value with a name. -/
def truth? (s : String) : Option Bool :=
  if ["true", "True", "TRUE"].contains s then some true
  else if ["false", "False", "FALSE"].contains s then some false
  else none

/-- Value of a digit up to a base. -/
def digitBelow? (base : Nat) (c : Char) : Option Nat :=
  match Text.hexValue? c with
  | some n => if n < base then some n else none
  | none => none

/-- Value of one or more digits of a base. -/
def inBase? (base : Nat) : List Char → Option Nat
  | [] => none
  | cs => cs.foldlM (fun n c => (digitBelow? base c).map (base * n + ·)) 0

/-- Value of the digits after the mark of a base. -/
def marked? : List Char → Option Nat
  | '0' :: 'x' :: r => inBase? 16 r
  | '0' :: 'o' :: r => inBase? 8 r
  | '0' :: 'b' :: r => inBase? 2 r
  | _ => none

/-- True for a zero with further digits, with or without a sign: no number. -/
def isZeroRun (s : String) : Bool :=
  let cs := match s.toList with
    | '-' :: r => r
    | '+' :: r => r
    | r => r
  match cs with
  | '0' :: d :: r => (d :: r).all Char.isDigit
  | _ => false

/-- Natural number that a text denotes, of any size. -/
def natural? (s : String) : Option Nat :=
  let cs := match s.toList with
    | '+' :: r => r
    | r => r
  match marked? cs with
  | some n => some n
  | none => if isZeroRun s then none else Text.ofDigits? cs

/-- Negative number that a text denotes, of any size. -/
def negative? (s : String) : Option Int :=
  match s.toList with
  | '-' :: cs =>
    match marked? cs with
    | some n => some (-(n : Int))
    | none => if isZeroRun s then none else (Text.ofDigits? cs).map fun n => -(n : Int)
  | _ => none

/-- True if a text denotes a number with a fraction, an infinity or no number. -/
def isFloat (s : String) : Bool :=
  let unsigned := match s.toList with
    | '+' :: r => r
    | r => r
  let twice := match s.toList, unsigned with
    | '+' :: _, '+' :: _ => true
    | '+' :: _, '-' :: _ => true
    | _, _ => false
  if twice then false
  else
    [".inf", ".Inf", ".INF"].contains (String.ofList unsigned) ||
      ["-.inf", "-.Inf", "-.INF", ".nan", ".NaN", ".NAN"].contains s ||
      Text.isFiniteDecimal unsigned

/-- Whole number that a text denotes. -/
def whole? (s : String) : Option Meaning :=
  match natural? s with
  | some n =>
    if n ≤ Text.max64 then some (.natural n)
    else if n ≤ Text.max128 then some .tooLarge
    else none
  | none =>
    match negative? s with
    | some i =>
      if i = 0 then some (.natural 0)
      else if Text.min64 ≤ i then some (.negative i)
      else if Text.min128 ≤ i then some .tooLarge
      else none
    | none => none

/-- Meaning of a plain scalar. -/
def meaning (s : String) : Meaning :=
  if s.isEmpty || isNull s then .null
  else match truth? s with
    | some b => .truth b
    | none =>
      match whole? s with
      | some m => m
      | none => if !isZeroRun s && isFloat s then .float else .text

end PinKeeper.Yaml
