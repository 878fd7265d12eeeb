import Almanac.Date.Checked

set_option autoImplicit false

/-!
# Moving by days, months and years

A move by months keeps the day of the month where the month it arrives in has that day and takes
the last day of that month otherwise.
-/

namespace Almanac.Date

def startOfMonth (d : Date) : Date :=
  on d.year d.month 1

def endOfMonth (d : Date) : Date :=
  on d.year d.month d.monthLength

def isEndOfMonth (d : Date) : Bool :=
  d == d.endOfMonth

def monthIndex (d : Date) : Int :=
  12 * d.year + ((d.month : Int) - 1)

def ofMonthIndex (index : Int) (day : Nat) : Date :=
  let year := index / 12
  let month := (index % 12).toNat + 1
  on year month (min day (Civil.monthLength year month))

def shiftMonths (d : Date) (n : Int) : Date :=
  let index := max (-(12 * farYear)) (min (d.monthIndex + n) (12 * farYear + 11))
  ofMonthIndex index d.day

def IsWord (n : Int) : Prop :=
  -2147483648 ≤ n ∧ n < 2147483648

instance (n : Int) : Decidable (IsWord n) :=
  inferInstanceAs (Decidable (_ ∧ _))

def addDays (d : Date) (n : Int) : Except Error Date :=
  if IsWord (d.serial + n) then ofSerial (d.serial + n)
  else .error (.invalidDate (.sum d n))

def addMonths (d : Date) (n : Int) : Except Error Date :=
  ofSerial (d.shiftMonths n).serial

def addYears (d : Date) (n : Int) : Except Error Date :=
  d.addMonths (12 * n)

-- The day of the month is put into the month that lies `n` months from the date's own.
def inMonth (d : Date) (n : Int) : Date :=
  let first := d.startOfMonth.shiftMonths n
  on first.year first.month (min d.day first.monthLength)

/-- The first and the last day that count as less than six months away. From the 28th on the months
are counted from the start of the date's month. -/
def halfYearAround (d : Date) : Date × Date :=
  if 28 ≤ d.day then ((d.inMonth (-6)).plus 2, (d.inMonth 6).minus 2)
  else ((d.shiftMonths (-6)).plus 2, (d.shiftMonths 6).minus 2)

def withinHalfYearOf (d other : Date) : Bool :=
  let window := other.halfYearAround
  window.1 ≤ d && d ≤ window.2

end Almanac.Date
