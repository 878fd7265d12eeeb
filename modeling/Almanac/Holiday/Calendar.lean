import Almanac.Holiday.Exchange

set_option autoImplicit false

/-!
# Holiday calendars
-/

namespace Almanac

inductive Calendar
  | federal | exchange
  deriving DecidableEq, Repr

namespace Calendar

def name : Calendar → String
  | .federal => "United States (Federal)"
  | .exchange => "New York Stock Exchange"

def isHoliday : Calendar → Date → Bool
  | .federal => Holiday.Federal.isHoliday
  | .exchange => Holiday.Exchange.isHoliday

def isWorkday (calendar : Calendar) (d : Date) : Bool :=
  !calendar.isHoliday d

end Calendar

def Date.range (first last : Date) : List Date :=
  (List.range (last.serial - first.serial + 1).toNat).map fun (i : Nat) => ⟨first.serial + i⟩

def Calendar.holidays (calendar : Calendar) (first last : Date) : List Date :=
  (Date.range first last).filter fun d => calendar.isHoliday d && !d.isWeekend

end Almanac
