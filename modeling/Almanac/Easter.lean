import Almanac.Settings
import Almanac.Word

set_option autoImplicit false

/-!
# Easter

Easter is the Sunday after the full moon of spring. Through the reform year moon and Sunday are
those of the Julian calendar, and the month and day that result stand in its reckoning; later on
they are those of the Gregorian calendar.

Both are reckoned in machine words as well. The year is checked after its Easter is reckoned, so
that years far beyond the checked ones have no answer when the Julian day number of their full moon
does not fit a word.
-/

namespace Almanac.Easter

def fullMoons : List (Nat × Nat) :=
  [(4, 5), (3, 25), (4, 13), (4, 2), (3, 22), (4, 10), (3, 30), (4, 18), (4, 7), (3, 27),
   (4, 15), (4, 4), (3, 24), (4, 12), (4, 1), (3, 21), (4, 9), (3, 29), (4, 17)]

def fullMoon (year : Int) : Nat × Nat :=
  fullMoons.getD (year % 19).toNat (4, 5)

/-- The number of a day of the Julian calendar, from noon of January 1, 4713 BC. -/
def julianDay (year : Int) (month day : Nat) : Int :=
  let early := (14 - (month : Int)) / 12
  let y := year + 4800 - early
  let m := (month : Int) + 12 * early - 3
  day + (153 * m + 2) / 5 + 365 * y + y / 4 - 32083

def julianWeekday (year : Int) (month day : Nat) : Weekday :=
  Weekday.afterSunday (julianDay year month day + 1)

/-- A full moon on a Sunday moves Easter by a whole week. -/
def julian (year : Int) : Nat × Nat :=
  let moon := fullMoon year
  let day := moon.2 + (7 - (julianWeekday year moon.1 moon.2).sundayIndex)
  if moon.1 = 3 ∧ 31 < day then (4, day - 31) else (moon.1, day)

/-- Month and day by the golden number, the solar and lunar corrections of the centuries, and the
distance of the moon from the Sunday that follows. -/
def gregorian (year : Int) : Nat × Nat :=
  let golden := year % 19
  let century := year / 100
  let inCentury := year % 100
  let lunar := (century - (century + 8) / 25 + 1) / 3
  let moon := (19 * golden + century - century / 4 - lunar + 15) % 30
  let sunday := (32 + 2 * (century % 4) + 2 * (inCentury / 4) - moon - inCentury % 4) % 7
  let late := (golden + 11 * moon + 22 * sunday) / 451
  let day := moon + sunday - 7 * late + 114
  ((day / 31).toNat, (day % 31 + 1).toNat)

def monthDay (year reformYear : Int) : Nat × Nat :=
  if year ≤ reformYear then julian year else gregorian year

end Easter

namespace Date

def easter (year reformYear : Int) : Except Error Date :=
  if year < 30 then .error (.undefinedEaster year)
  else
    let monthDay := Easter.monthDay year reformYear
    ofYearMonthDay year monthDay.1 monthDay.2

def easterOfYear (d : Date) (settings : Settings) : Except Error Date :=
  easter d.year settings.reformYear

def isEaster (d : Date) (settings : Settings) : Bool :=
  match d.easterOfYear settings with
  | .ok sunday => sunday == d
  | .error _ => false

end Almanac.Date

namespace Almanac.Word

def julianDay? (year : Int) (month day : Nat) : Option Int := do
  let early ← div? (← sub? 14 month) 12
  let y ← sub? (← add? year 4800) early
  let m ← sub? (← add? month (← mul? 12 early)) 3
  let months ← div? (← add? (← mul? 153 m) 2) 5
  let days ← add? (← add? day months) (← mul? 365 y)
  sub? (← add? days (← div? y 4)) 32083

def julianWeekday? (year : Int) (month day : Nat) : Option Weekday := do
  Weekday.ofSundayIndex? (← byte? (← rem? (← add? (← julianDay? year month day) 1) 7))

def julianEaster? (year : Int) : Option (Nat × Nat) := do
  let moon ← Easter.fullMoons[(year % 19).toNat]?
  let weekday ← julianWeekday? year moon.1 moon.2
  let day ← addByte? moon.2 (← subByte? 7 weekday.sundayIndex)
  if moon.1 = 3 ∧ 31 < day then return (4, ← subByte? day 31) else return (moon.1, day)

def lunar? (century : Int) : Option Int := do
  div? (← add? (← sub? century (← div? (← add? century 8) 25)) 1) 3

def moonDistance? (year : Int) : Option Int := do
  let golden ← rem? year 19
  let century ← div? year 100
  let common ← sub? (← add? (← mul? 19 golden) century) (← div? century 4)
  rem? (← add? (← sub? common (← lunar? century)) 15) 30

def sundayDistance? (year moon : Int) : Option Int := do
  let century ← div? year 100
  let inCentury ← rem? year 100
  let centuries ← add? 32 (← mul? 2 (← rem? century 4))
  let years ← add? centuries (← mul? 2 (← div? inCentury 4))
  rem? (← sub? (← sub? years moon) (← rem? inCentury 4)) 7

def weekOff? (year moon sunday : Int) : Option Int := do
  div? (← add? (← add? (← rem? year 19) (← mul? 11 moon)) (← mul? 22 sunday)) 451

def gregorianEaster? (year : Int) : Option (Nat × Nat) := do
  let moon ← moonDistance? year
  let sunday ← sundayDistance? year moon
  let late ← mul? 7 (← weekOff? year moon sunday)
  let day ← add? (← sub? (← add? moon sunday) late) 114
  return (← byte? (← div? day 31), ← byte? (← add? (← rem? day 31) 1))

def monthDay? (year reformYear : Int) : Option (Nat × Nat) :=
  if year ≤ reformYear then julianEaster? year else gregorianEaster? year

def easter? (year reformYear : Int) : Option (Except Error Date) :=
  if year < 30 then some (.error (.undefinedEaster year))
  else do
    let monthDay ← monthDay? year reformYear
    return Date.ofYearMonthDay year monthDay.1 monthDay.2

end Almanac.Word
