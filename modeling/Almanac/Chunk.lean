import Almanac.Date.Shift
import Almanac.Week

set_option autoImplicit false

/-!
# Chunks of time

The kinds of period that time is cut into. Each date lies in one period of a kind, which begins and
ends on a date, and moving by a kind of period leads to a like place in another period of it.

Two weeks make a biweek when the first has an odd number. Where a year has 53 weeks the last one is
a biweek of its own.
-/

namespace Almanac

inductive Chunk
  | year | half | quarter | bimonth | month | semimonth | biweek | week | day
  deriving DecidableEq, Repr

namespace Chunk

def all : List Chunk :=
  [.year, .half, .quarter, .bimonth, .month, .semimonth, .biweek, .week, .day]

def name : Chunk → String
  | .year => "year"
  | .half => "half"
  | .quarter => "quarter"
  | .bimonth => "bimonth"
  | .month => "month"
  | .semimonth => "semimonth"
  | .biweek => "biweek"
  | .week => "week"
  | .day => "day"

def fortnight : List Char :=
  ['f', 'o', 'r', 't', 'n', 'i', 'g', 'h', 't']

def read (text : List Char) : Except Error Chunk :=
  let name := Text.lower (Text.trim text)
  if name = fortnight then .ok .biweek
  else match all.find? fun c => c.name.toList == name with
    | some c => .ok c
    | none => .error (.unknownChunk text)

def firstMonth (size month : Nat) : Nat :=
  (month - 1) / size * size + 1

def lastMonth (size month : Nat) : Nat :=
  (month - 1) / size * size + size

def beginningOf (chunk : Chunk) (d : Date) (settings : Settings) : Date :=
  match chunk with
  | .year => Date.on d.year (firstMonth 12 d.month) 1
  | .half => Date.on d.year (firstMonth 6 d.month) 1
  | .quarter => Date.on d.year (firstMonth 3 d.month) 1
  | .bimonth => Date.on d.year (firstMonth 2 d.month) 1
  | .month => Date.on d.year (firstMonth 1 d.month) 1
  | .semimonth => Date.on d.year d.month (if d.day ≤ 15 then 1 else 16)
  | .biweek =>
      let start := d.startOfWeek settings
      if d.weekNumber settings % 2 = 1 then start else start.minus 7
  | .week => d.startOfWeek settings
  | .day => d

def endOf (chunk : Chunk) (d : Date) (settings : Settings) : Date :=
  match chunk with
  | .year => (Date.on d.year (lastMonth 12 d.month) 1).endOfMonth
  | .half => (Date.on d.year (lastMonth 6 d.month) 1).endOfMonth
  | .quarter => (Date.on d.year (lastMonth 3 d.month) 1).endOfMonth
  | .bimonth => (Date.on d.year (lastMonth 2 d.month) 1).endOfMonth
  | .month => (Date.on d.year (lastMonth 1 d.month) 1).endOfMonth
  | .semimonth => if d.day ≤ 15 then Date.on d.year d.month 15 else d.endOfMonth
  | .biweek =>
      let later := d.plus 7
      if d.weekNumber settings % 2 = 0 ∨ later.weekNumber settings = 1 then d.endOfWeek settings
      else later.endOfWeek settings
  | .week => d.endOfWeek settings
  | .day => d

def isBeginningOf (chunk : Chunk) (d : Date) (settings : Settings) : Bool :=
  d == chunk.beginningOf d settings

def isEndOf (chunk : Chunk) (d : Date) (settings : Settings) : Bool :=
  d == chunk.endOf d settings

-- A day of the first half goes with the day fifteen later in the second half, and the last days of
-- a long month go with the 15th.
def halfMonthOn (d : Date) : Date :=
  if d.day ≤ 15 then Date.on d.year d.month (min (d.day + 15) d.monthLength)
  else
    let following := d.startOfMonth.shiftMonths 1
    Date.on following.year following.month (min (d.day - 15) 15)

def halfMonthBack (d : Date) : Date :=
  if d.day ≤ 15 then
    let preceding := d.startOfMonth.shiftMonths (-1)
    Date.on preceding.year preceding.month (min (d.day + 15) preceding.monthLength)
  else Date.on d.year d.month (min (d.day - 15) 15)

def advanceSemimonths (d : Date) (n : Int) : Date :=
  let moved := d.shiftMonths (n.tdiv 2)
  if n.tmod 2 = 1 then halfMonthOn moved
  else if n.tmod 2 = -1 then halfMonthBack moved
  else moved

def advance (chunk : Chunk) (d : Date) (n : Int) : Date :=
  if n = 0 then d
  else match chunk with
    | .year => d.shiftMonths (12 * n)
    | .half => d.shiftMonths (6 * n)
    | .quarter => d.shiftMonths (3 * n)
    | .bimonth => d.shiftMonths (2 * n)
    | .month => d.shiftMonths n
    | .semimonth => advanceSemimonths d n
    | .biweek => d.plus (14 * n)
    | .week => d.plus (7 * n)
    | .day => d.plus n

end Chunk

end Almanac
