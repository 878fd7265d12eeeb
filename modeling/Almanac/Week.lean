import Almanac.Date.Basic
import Almanac.Settings

set_option autoImplicit false

/-!
# Weeks

Weeks start on the day that the settings name. They are numbered from the first one that starts in
the year, so the days before it belong to the last week of the year before.
-/

namespace Almanac.Date

def startOfWeek (d : Date) (settings : Settings) : Date :=
  d.minus (settings.weekStart.daysUntil d.weekday)

def endOfWeek (d : Date) (settings : Settings) : Date :=
  (d.startOfWeek settings).plus 6

def firstWeekStart (year : Int) (settings : Settings) : Date :=
  let newYear := on year 1 1
  newYear.plus (newYear.weekday.daysUntil settings.weekStart)

def weekOrigin (d : Date) (settings : Settings) : Date :=
  let first := firstWeekStart d.year settings
  if d < first then firstWeekStart (d.year - 1) settings else first

def weekNumber (d : Date) (settings : Settings) : Nat :=
  ((d.serial - (d.weekOrigin settings).serial) / 7 + 1).toNat

end Almanac.Date
