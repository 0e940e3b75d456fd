import PinKeeper.Time.Instant

/-!
# Time/Epoch — instants counted in seconds

A clock counts the seconds since the start of 1970.  The days of four centuries are always the same
number, so a day falls into a period of that length, and the period is divided into centuries, spans
of four years and years, all of which start in March so that the day added in a leap year comes
last.
-/

namespace PinKeeper.Time

/-- Days of four centuries. -/
def periodDays : Nat := 146097

/-- Days from 1 March of the year 0 to the start of 1970. -/
def epochDay : Int := 719468

/-- Year of a period, counted from March, in which a day of the period falls. -/
def yearOfPeriod (day : Nat) : Nat :=
  (day - day / 1460 + day / 36524 - day / 146096) / 365

/-- Date of a day, counted from 1 January 1970. -/
def Date.ofDay (day : Int) : Date :=
  let shifted := day + epochDay
  let period := shifted.fdiv periodDays
  let dayOfPeriod := (shifted.fmod periodDays).toNat
  let year := yearOfPeriod dayOfPeriod
  let dayOfYear := dayOfPeriod - (365 * year + year / 4 - year / 100)
  let march := (5 * dayOfYear + 2) / 153
  let month := if march < 10 then march + 3 else march - 9
  ⟨period * 400 + year + (if month ≤ 2 then 1 else 0), month,
    dayOfYear - (153 * march + 2) / 5 + 1⟩

/-- Instant of a clock. -/
def Instant.ofClock (seconds : Int) (nanos : Nat) : Instant :=
  let second := (seconds.fmod 86400).toNat
  ⟨Date.ofDay (seconds.fdiv 86400), second / 3600, second / 60 % 60, second % 60, nanos⟩

end PinKeeper.Time
