import Almanac.Date.NthWeekday
import Almanac.Easter

set_option autoImplicit false

/-!
# Feasts

A feast falls on one day in each of the years in which it is kept, by a rule that finds the day.
-/

namespace Almanac.Holiday

inductive Rule
  | fixed (month day : Nat)
  | nthWeekday (nth : Int) (weekday : Weekday) (month : Nat)
  | goodFriday
  | electionDay
  deriving DecidableEq, Repr

def isGoodFriday (d : Date) : Bool :=
  match Date.easter d.year ({} : Settings).reformYear with
  | .ok sunday => sunday.minus 2 == d
  | .error _ => false

def isElectionDay (d : Date) : Bool :=
  match Date.nthWeekday 1 .monday d.year 11 with
  | .ok monday => monday.next == d
  | .error _ => false

-- Weekday and month are looked at first, because they rule out most days without a search.
def Rule.fallsOn : Rule → Date → Bool
  | .fixed month day, d => d.month == month && d.day == day
  | .nthWeekday nth weekday month, d =>
      d.weekday == weekday && d.month == month && d.isNthWeekday nth weekday month
  | .goodFriday, d =>
      d.weekday == .friday && (d.month == 3 || d.month == 4) && isGoodFriday d
  | .electionDay, d => d.weekday == .tuesday && d.month == 11 && isElectionDay d

structure Feast where
  rule : Rule
  years : Int → Bool := fun _ => true

def Feast.fallsOn (feast : Feast) (d : Date) : Bool :=
  feast.rule.fallsOn d && feast.years d.year

end Almanac.Holiday
