import Almanac.Date.Shift

set_option autoImplicit false

/-!
# The nth weekday of a month

A positive ordinal counts from the start of the month and a negative one from its end.
-/

namespace Almanac.Date

def nthWeekday (nth : Int) (weekday : Weekday) (year : Int) (month : Nat) : Except Error Date := do
  checkRange .monthNumber month 1 12
  checkRange .ordinalDay nth.natAbs 1 5
  let first ← ofYearMonthDay year month 1
  let found :=
    if 0 < nth then first.plus (first.weekday.daysUntil weekday + 7 * (nth - 1))
    else
      let last := first.endOfMonth
      last.minus (weekday.daysUntil last.weekday + 7 * (-nth - 1))
  if found.month = month ∧ found.year = year then .ok found
  else .error (.noSuchOccurrence (.weekday nth weekday year month))

def isNthWeekday (d : Date) (nth : Int) (weekday : Weekday) (month : Nat) : Bool :=
  match nthWeekday nth weekday d.year month with
  | .ok found => found == d
  | .error _ => false

end Almanac.Date
