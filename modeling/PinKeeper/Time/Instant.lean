import PinKeeper.Text.Blank
import PinKeeper.Text.Decimal

/-!
# Time/Instant — points in time as civil date and time of day

An instant is kept as the year, month, day and time of day that a clock without offset shows, so
writing one and reading the result back touches no day count.  A text with an offset is brought to
offset zero when it is read: the offset is less than a day, so the date moves by one day at most.
A second numbered 60 is a leap second and stays one.

Two readings: `strict?` takes the interchange form with every field at full width, `relaxed?` takes
shorter fields, blanks between fields and years of any width.  `Instant.text` writes a fraction of
none, three, six or nine digits, the fewest that lose nothing.
-/

namespace PinKeeper.Time

/-! ## Dates -/

/-- Date of the proleptic calendar. -/
structure Date where
  year : Int
  month : Nat
  day : Nat
deriving DecidableEq, Repr

/-- True in a year with a 29 February. -/
def isLeap (year : Int) : Bool :=
  year % 4 == 0 && (year % 100 != 0 || year % 400 == 0)

/-- Number of days of a month. -/
def monthLength (year : Int) (month : Nat) : Nat :=
  if month = 2 then (if isLeap year then 29 else 28)
  else if month = 4 || month = 6 || month = 9 || month = 11 then 30
  else 31

/-- First year that a date may have. -/
def firstYear : Int := -262143

/-- Last year that a date may have. -/
def lastYear : Int := 262142

/-- True if the date is on the calendar and its year within bounds. -/
def Date.valid (d : Date) : Bool :=
  1 ≤ d.month && d.month ≤ 12 && 1 ≤ d.day && d.day ≤ monthLength d.year d.month &&
    firstYear ≤ d.year && d.year ≤ lastYear

/-- Day after a date. -/
def Date.next (d : Date) : Date :=
  if d.day < monthLength d.year d.month then { d with day := d.day + 1 }
  else if d.month < 12 then ⟨d.year, d.month + 1, 1⟩
  else ⟨d.year + 1, 1, 1⟩

/-- Day before a date. -/
def Date.previous (d : Date) : Date :=
  if 1 < d.day then { d with day := d.day - 1 }
  else if 1 < d.month then ⟨d.year, d.month - 1, monthLength d.year (d.month - 1)⟩
  else ⟨d.year - 1, 12, 31⟩

/-! ## Instants -/

/-- Date and time of day at offset zero; second 60 is a leap second. -/
structure Instant where
  date : Date
  hour : Nat
  minute : Nat
  second : Nat
  nanos : Nat
deriving DecidableEq, Repr

/-- The instant at which a local date and time with an offset in minutes falls. -/
def Instant.ofLocal (wall : Instant) (offset : Int) : Instant :=
  let minutes := (wall.hour * 60 + wall.minute : Nat) - offset
  let date :=
    if minutes < 0 then wall.date.previous
    else if 1440 ≤ minutes then wall.date.next
    else wall.date
  let within := (minutes % 1440).toNat
  { wall with date := date, hour := within / 60, minute := within % 60 }

/-- True if every field is in its range. -/
def Instant.valid (t : Instant) : Bool :=
  t.date.valid && t.hour ≤ 23 && t.minute ≤ 59 && t.second ≤ 60 && t.nanos < 1000000000

/-! ## Reading -/

/-- Reads between `least` and `most` digits, as many as there are. -/
def digitRun (least most : Nat) (s : List Char) : Option (Nat × List Char) :=
  let run := (s.take most).takeWhile Char.isDigit
  if run.length < least then none else some (Text.ofDigits run, s.drop run.length)

/-- Drops the character that must come next. -/
def expect (c : Char) : List Char → Option (List Char)
  | d :: r => if d = c then some r else none
  | [] => none

/-- Reads the digits of a fraction; the tenth and later ones are dropped. -/
def fraction (s : List Char) : Option (Nat × List Char) :=
  let run := (s.take 9).takeWhile Char.isDigit
  if run.isEmpty then none
  else
    some (Text.ofDigits run * Nat.pow 10 (9 - run.length),
      (s.drop run.length).dropWhile Char.isDigit)

/-- Reads a fraction if a point introduces one. -/
def optionalFraction : List Char → Option (Nat × List Char)
  | '.' :: r => fraction r
  | r => some (0, r)

/-- Reads an offset in minutes: `Z`, or a sign, two digits, a separator and two digits. -/
def offset (separator : List Char → Option (List Char)) : List Char → Option (Int × List Char)
  | c :: r =>
    if c = 'Z' || c = 'z' then some (0, r)
    else if c = '+' || c = '-' || c.toNat = 0x2212 then do
      let (hours, r) ← digitRun 2 2 r
      let r ← separator r
      let (minutes, r) ← digitRun 2 2 r
      if 59 < minutes then none
      else
        let size : Int := hours * 60 + minutes
        some (if c = '+' then size else -size, r)
    else none
  | [] => none

/-- Checks the ranges of a local time and moves it to offset zero. -/
def settle (wall : Instant) (shift : Int) : Option Instant :=
  let t := Instant.ofLocal wall shift
  if wall.valid && shift.natAbs < 1440 && t.date.valid then some t else none

/-- True for what may stand between date and time. -/
def isDateEnd (c : Char) : Bool := c = 'T' || c = 't' || c = ' '

/-- Reads the interchange form: four, two and two digits, a separator, three times two digits, an
optional fraction and an offset with a colon. -/
def strict? (text : String) : Option Instant := do
  let (year, r) ← digitRun 4 4 text.toList
  let (month, r) ← digitRun 2 2 (← expect '-' r)
  let (day, r) ← digitRun 2 2 (← expect '-' r)
  let r ← match r with
    | c :: r => if isDateEnd c then some r else none
    | [] => none
  let (hour, r) ← digitRun 2 2 r
  let (minute, r) ← digitRun 2 2 (← expect ':' r)
  let (second, r) ← digitRun 2 2 (← expect ':' r)
  let (nanos, r) ← optionalFraction r
  let (shift, r) ← offset (expect ':') r
  if r.isEmpty then settle ⟨⟨year, month, day⟩, hour, minute, second, nanos⟩ shift else none

/-- Reads a year after optional blanks: up to four digits, or any number of them after a sign. -/
def relaxedYear (s : List Char) : Option (Int × List Char) :=
  match Text.trimLeft s with
  | '-' :: r => (digitRun 1 r.length r).map fun (n, r) => (-(n : Int), r)
  | '+' :: r => (digitRun 1 r.length r).map fun (n, r) => ((n : Int), r)
  | r => (digitRun 1 4 r).map fun (n, r) => ((n : Int), r)

/-- Reads one or two digits after optional blanks. -/
def relaxedPair (s : List Char) : Option (Nat × List Char) := digitRun 1 2 (Text.trimLeft s)

/-- Drops optional blanks and the character that must follow them. -/
def relaxedMark (c : Char) (s : List Char) : Option (List Char) := expect c (Text.trimLeft s)

/-- Drops any colons and blanks. -/
def relaxedSeparator (s : List Char) : Option (List Char) :=
  some (s.dropWhile fun c => c = ':' || Text.isBlank c)

/-- Reads an offset or the name of offset zero. -/
def relaxedOffset : List Char → Option (Int × List Char)
  | a :: b :: c :: r =>
    if a.toUpper = 'U' && b.toUpper = 'T' && c.toUpper = 'C' then some (0, r)
    else offset relaxedSeparator (a :: b :: c :: r)
  | s => offset relaxedSeparator s

/-- Reads an instant with blanks allowed around the fields and fields of reduced width. -/
def relaxed? (text : String) : Option Instant := do
  let (year, r) ← relaxedYear text.toList
  let (month, r) ← relaxedPair (← relaxedMark '-' r)
  let (day, r) ← relaxedPair (← relaxedMark '-' r)
  let r ← match r with
    | c :: r => if isDateEnd c then some r else none
    | [] => none
  let (hour, r) ← relaxedPair r
  let (minute, r) ← relaxedPair (← relaxedMark ':' r)
  let (second, r) ← relaxedPair (← relaxedMark ':' r)
  let (nanos, r) ← optionalFraction r
  let (shift, r) ← relaxedOffset (Text.trimLeft r)
  if (Text.trimLeft r).isEmpty then
    settle ⟨⟨year, month, day⟩, hour, minute, second, nanos⟩ shift
  else none

/-! ## Writing -/

/-- Year in four digits; outside 0 to 9999 with a sign and at least four digits. -/
def yearText (year : Int) : String :=
  if 0 ≤ year && year ≤ 9999 then Text.zeroPadded 4 year.toNat
  else (if year < 0 then "-" else "+") ++ Text.zeroPadded 4 year.natAbs

/-- Fraction of a second in the fewest groups of three digits. -/
def fractionText (nanos : Nat) : String :=
  if nanos = 0 then ""
  else if nanos % 1000000 = 0 then "." ++ Text.zeroPadded 3 (nanos / 1000000)
  else if nanos % 1000 = 0 then "." ++ Text.zeroPadded 6 (nanos / 1000)
  else "." ++ Text.zeroPadded 9 nanos

/-- Interchange form of an instant. -/
def Instant.text (t : Instant) : String :=
  yearText t.date.year ++ "-" ++ Text.zeroPadded 2 t.date.month ++ "-" ++
    Text.zeroPadded 2 t.date.day ++ "T" ++ Text.zeroPadded 2 t.hour ++ ":" ++
    Text.zeroPadded 2 t.minute ++ ":" ++ Text.zeroPadded 2 t.second ++ fractionText t.nanos ++ "Z"

end PinKeeper.Time
