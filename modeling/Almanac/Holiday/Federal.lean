import Almanac.Holiday.Feast

set_option autoImplicit false

/-!
# Federal holidays

A feast on a Saturday is kept on the Friday before it and one on a Sunday on the Monday after it.
Inauguration Day moves from a Sunday only, and the Friday after a Thursday Christmas is free.
-/

namespace Almanac.Holiday.Federal

-- The days before Christmas that were closed by decree.
def decreed : List Date :=
  [Date.on 2012 12 24, Date.on 2018 12 24, Date.on 2019 12 24, Date.on 2020 12 24,
   Date.on 2024 12 24]

def funerals : List Date :=
  [Date.on 1963 11 25, Date.on 1969 3 31, Date.on 1972 12 28, Date.on 1973 1 25,
   Date.on 1994 4 27, Date.on 2004 6 11, Date.on 2007 1 2, Date.on 2018 12 5, Date.on 2025 1 9]

def feasts : List Feast :=
  -- New Year, Independence Day, Veterans Day, Christmas, Juneteenth
  [{ rule := .fixed 1 1 },
   { rule := .fixed 7 4 },
   { rule := .fixed 11 11 },
   { rule := .fixed 12 25 },
   { rule := .fixed 6 19, years := fun y => 2021 ≤ y },
   -- the birthdays of King and Washington, Memorial Day, Labor Day, Columbus Day, Thanksgiving
   { rule := .nthWeekday 3 .monday 1 },
   { rule := .nthWeekday 3 .monday 2 },
   { rule := .nthWeekday (-1) .monday 5 },
   { rule := .nthWeekday 1 .monday 9 },
   { rule := .nthWeekday 2 .monday 10 },
   { rule := .nthWeekday 4 .thursday 11 }]

def isFeast (d : Date) : Bool :=
  feasts.any fun feast => feast.fallsOn d

def isObserved (d : Date) : Bool :=
  (d.weekday == .friday && isFeast d.next) || (d.weekday == .monday && isFeast d.previous)

def isDayAfterChristmas (d : Date) : Bool :=
  d.weekday == .friday && d.month == 12 && d.day == 26

def isInauguration (d : Date) : Bool :=
  d.year % 4 == 1 && 1965 < d.year && d.month == 1 &&
    ((d.day == 20 && !d.isWeekend) || (d.day == 21 && d.weekday == .monday))

def isHoliday (d : Date) : Bool :=
  d.isWeekend || decreed.contains d || funerals.contains d || isFeast d ||
    isDayAfterChristmas d || isObserved d || isInauguration d

end Almanac.Holiday.Federal
