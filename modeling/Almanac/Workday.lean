import Almanac.Holiday.Calendar

set_option autoImplicit false

/-!
# Workdays

Workdays are found by walking from day to day. A step at the end of the representable days leads
nowhere, so a walk toward that end may find no workday: these functions then have no answer.
-/

namespace Almanac

def Direction.seek (dir : Direction) (p : Date → Bool) (d : Date) : Option Date :=
  if p d then some d
  else if 0 < dir.room d then dir.seek p (dir.step d)
  else none
termination_by dir.room d
decreasing_by
  next room => exact dir.room_step d room

namespace Calendar

def nearestWorkday (calendar : Calendar) (dir : Direction) (d : Date) : Option Date :=
  dir.seek calendar.isWorkday d

def followingWorkday (calendar : Calendar) (dir : Direction) (d : Date) : Option Date :=
  calendar.nearestWorkday dir (dir.step d)

def walk (calendar : Calendar) (dir : Direction) : Nat → Date → Option Date
  | 0, d => some d
  | n + 1, d => (calendar.followingWorkday dir d).bind (calendar.walk dir n)

def addWorkdays (calendar : Calendar) (d : Date) (n : Int) : Option Date :=
  calendar.walk (if 0 ≤ n then .after else .before) n.natAbs d

def countWorkdays (calendar : Calendar) (first last : Date) : Nat :=
  Nat.fold (last.serial - first.serial).toNat
    (fun i _ count => if calendar.isWorkday ⟨first.serial + i + 1⟩ then count + 1 else count) 0

/-- The number of workdays after the earlier date up to the later one, negative when the dates are
given in falling order. The count walks past the later date, which the last representable day does
not allow. -/
def workdaysBetween (calendar : Calendar) (a b : Date) : Option Int :=
  if a = b then some 0
  else if Date.ceiling ≤ max a b then none
  else if a < b then some (calendar.countWorkdays a b)
  else some (-(calendar.countWorkdays b a))

end Calendar

end Almanac
