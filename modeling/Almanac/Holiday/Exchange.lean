import Almanac.Holiday.Federal

set_option autoImplicit false

/-!
# Exchange holidays

A feast on a Sunday is kept on the Monday after it. A feast on a Saturday is kept on the Friday
before it since July 1959, unless that Friday ends a quarter.

In the second half of 1968 the exchange closed on the Wednesday of each week that had no other
closed day on Monday, Tuesday, Thursday or Friday. These four are never such a Wednesday, so the
closures are looked up in two layers: `isClosed` knows all the others, and the Wednesdays rest on
it.
-/

namespace Almanac.Holiday.Exchange

def feasts : List Feast :=
  -- New Year, Independence Day, Christmas
  [{ rule := .fixed 1 1 },
   { rule := .fixed 7 4 },
   { rule := .fixed 12 25 },
   -- the birthdays of King and Washington
   { rule := .nthWeekday 3 .monday 1, years := fun y => 1998 ≤ y },
   { rule := .fixed 2 22, years := fun y => y ≤ 1970 },
   { rule := .nthWeekday 3 .monday 2, years := fun y => 1970 < y },
   { rule := .goodFriday, years := fun y => y != 1898 && y != 1906 && y != 1907 },
   -- Memorial Day, Labor Day, Columbus Day
   { rule := .fixed 5 30, years := fun y => y ≤ 1970 },
   { rule := .nthWeekday (-1) .monday 5, years := fun y => 1970 < y },
   { rule := .nthWeekday 1 .monday 9 },
   { rule := .fixed 10 12, years := fun y => 1909 ≤ y && y ≤ 1953 },
   { rule := .electionDay, years := fun y => y ≤ 1968 || (y ≤ 1980 && y % 4 == 0) },
   -- Thanksgiving, Armistice Day
   { rule := .nthWeekday (-1) .thursday 11, years := fun y => y ≤ 1938 || y == 1942 },
   { rule := .nthWeekday (-2) .thursday 11, years := fun y => 1939 ≤ y && y ≤ 1941 },
   { rule := .nthWeekday 4 .thursday 11, years := fun y => 1943 ≤ y },
   { rule := .fixed 11 11,
     years := fun y => (1918 ≤ y && y ≤ 1921) || (1934 ≤ y && y ≤ 1953) }]

def isFeast (d : Date) : Bool :=
  feasts.any fun feast => feast.fallsOn d

def closures : List Date :=
  [Date.on 1961 5 29, Date.on 1963 11 25, Date.on 1965 12 24, Date.on 1968 2 12,
   Date.on 1968 4 9, Date.on 1968 7 5, Date.on 1969 2 10, Date.on 1969 7 21, Date.on 1977 7 14,
   Date.on 1985 9 27, Date.on 2007 1 2, Date.on 2012 10 29, Date.on 2012 10 30,
   -- the four days after the attacks of September 11
   Date.on 2001 9 11, Date.on 2001 9 12, Date.on 2001 9 13, Date.on 2001 9 14]

def isQuarterEnd (d : Date) : Bool :=
  d.month % 3 == 0 && d.isEndOfMonth

/-- The first day on which a Friday could stand for the Saturday after it. -/
def fridayRule : Date := Date.on 1959 7 3

def isObserved (d : Date) : Bool :=
  (d.weekday == .friday && fridayRule ≤ d && !isQuarterEnd d && isFeast d.next) ||
    (d.weekday == .monday && isFeast d.previous)

def isClosed (d : Date) : Bool :=
  d.isWeekend || Federal.funerals.contains d || isFeast d || closures.contains d || isObserved d

def paperworkStart : Date := Date.on 1968 6 12
def paperworkEnd : Date := Date.on 1968 12 31

def isPaperworkDay (d : Date) : Bool :=
  d.weekday == .wednesday && paperworkStart ≤ d && d ≤ paperworkEnd &&
    [-2, -1, 1, 2].all fun offset => !isClosed (d.plus offset)

def isSpecialClosure (d : Date) : Bool :=
  closures.contains d || isPaperworkDay d

def isHoliday (d : Date) : Bool :=
  isClosed d || isPaperworkDay d

end Almanac.Holiday.Exchange
