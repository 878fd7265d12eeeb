import Almanac.Date.Checked

set_option autoImplicit false

/-!
# ISO weeks

A week runs from Monday to Sunday and belongs to the year that its Thursday lies in. Week 1 is the
week of January 4.
-/

namespace Almanac.Date

def thursday (d : Date) : Date :=
  d.plus (4 - (d.weekday.ordinal : Int))

def isoYear (d : Date) : Int :=
  d.thursday.year

def isoWeek (d : Date) : Nat :=
  (d.thursday.dayOfYear - 1) / 7 + 1

def biweek (d : Date) : Nat :=
  (d.isoWeek + 1) / 2

/-- A year has a week 53 when it begins or ends on a Thursday. -/
def isoWeeks (year : Int) : Nat :=
  if (on year 1 1).weekday = .thursday ∨ (on year 12 31).weekday = .thursday then 53 else 52

def isoYearStart (year : Int) : Date :=
  let fourth := on year 1 4
  fourth.minus ((fourth.weekday.ordinal : Int) - 1)

def ofIsoWeek (year : Int) (week day : Nat) : Except Error Date := do
  checkRange .weekNumber week 1 53
  checkRange .isoDay day 1 7
  if isoWeeks year < week then .error (.invalidDate (.week year week))
  else ofSerial ((isoYearStart year).serial + ((week : Int) - 1) * 7 + ((day : Int) - 1))

end Almanac.Date
