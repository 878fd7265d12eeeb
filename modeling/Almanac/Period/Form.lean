import Almanac.Period.Basic
import Almanac.Text.Pattern

set_option autoImplicit false

/-!
# The forms in which a period is written

Each form is a pattern that cuts fields out of a text and a rule that makes a period of the fields.
A dash or a slash stands between numbers, and letters may have either case.
-/

namespace Almanac

inductive Form
  | dayOfYear | month | isoWeek | quarter | half | year | halfMonth | weekOfMonth | nthWeekday
  | easter | relative | forever | never
  deriving DecidableEq, Repr

inductive Field
  | year | month | day | number | letter | nth | weekday | offset | relation | chunk | direction
  deriving DecidableEq, Repr

namespace Form

open Text (Fields Pattern saturated lower)
open Text.Pattern (oneOf opt sequence word)

def all : List Form :=
  [.dayOfYear, .month, .isoWeek, .quarter, .half, .year, .halfMonth, .weekOfMonth, .nthWeekday,
   .easter, .relative, .forever, .never]

def name : Form → String
  | .dayOfYear => "day-of-year"
  | .month => "month"
  | .isoWeek => "commercial-week"
  | .quarter => "quarter"
  | .half => "half"
  | .year => "year"
  | .halfMonth => "half-month"
  | .weekOfMonth => "week-of-month"
  | .nthWeekday => "nth-weekday"
  | .easter => "easter"
  | .relative => "relative"
  | .forever => "forever"
  | .never => "never"

def digits (low high : Nat) : Pattern Field :=
  .count .decimal low high

def separator : Pattern Field :=
  .one (.among ['-', '/'])

def letter (c : Char) : Pattern Field :=
  .one (.among [c])

def yearFirst : Pattern Field :=
  opt (.seq (.field .year (digits 4 4)) separator)

def monthNext : Pattern Field :=
  opt (.seq (.field .month (digits 1 2)) separator)

def lettered (c : Char) (number : Pattern Field) : Pattern Field :=
  .alt (.seq (.field .number number) (letter c)) (.seq (letter c) (.field .number number))

def sign : Pattern Field :=
  .one (.among ['-', '+'])

def weekdayWord : Pattern Field :=
  .field .weekday (.seq (oneOf (Weekday.all.map fun w => word w.initials)) (.many .letter))

def romanNumerals : List (List Char) :=
  [['i'], ['i', 'i'], ['i', 'i', 'i'], ['i', 'v'], ['v'], ['v', 'i']]

def relations : List (List Char) :=
  ["this".toList, "to".toList, "last".toList, "yester".toList, "next".toList]

def morrow : List Char :=
  "morrow".toList

def chunkWords : List (List Char) :=
  [morrow, "day".toList, "week".toList, "biweek".toList, "fortnight".toList, "semimonth".toList,
   "bimonth".toList, "month".toList, "quarter".toList, "half".toList, "year".toList]

def pattern : Form → Pattern Field
  | .dayOfYear => .seq yearFirst (.field .day (digits 3 3))
  | .month =>
      sequence
        [yearFirst, .field .month (digits 1 2), opt (.seq separator (.field .day (digits 1 2)))]
  | .isoWeek =>
      sequence
        [yearFirst, lettered 'w' (digits 1 2), opt (.seq separator (.field .day (digits 1 1)))]
  | .quarter => .seq yearFirst (lettered 'q' (digits 1 1))
  | .half => .seq yearFirst (lettered 'h' (digits 1 1))
  | .year => .field .year (digits 4 4)
  | .halfMonth => sequence [yearFirst, monthNext, .field .letter (.one (.among ['a', 'b']))]
  | .weekOfMonth =>
      sequence [yearFirst, monthNext, .field .number (oneOf (romanNumerals.map word))]
  | .nthWeekday =>
      sequence
        [yearFirst, monthNext, .field .nth (.seq (opt sign) (.atLeastOne .decimal)), weekdayWord]
  | .easter =>
      sequence
        [yearFirst, letter 'e', opt (.field .offset (.seq sign (.atLeastOne .decimal)))]
  | .relative =>
      sequence
        [.field .relation (oneOf (relations.map word)), opt (.one (.among ['-', '_'])),
          .field .chunk (oneOf (chunkWords.map word))]
  | .forever => word "forever".toList
  | .never => word "never".toList

def number (fields : Fields Field) (field : Field) : Int :=
  ((fields.lookup field).map saturated).getD 0

def letters (fields : Fields Field) (field : Field) : List Char :=
  (fields.lookup field).getD []

/-- A year is kept to its low 32 bits. -/
def yearOf (fields : Fields Field) : Option Int :=
  (fields.lookup .year).map fun s => (saturated s).bmod 4294967296

def monthOf (fields : Fields Field) : Except Error (Option Nat) :=
  match fields.lookup .month with
  | some s => do
      checkRange .monthNumber (saturated s) 1 12
      return some (saturated s).toNat
  | none => .ok none

def isoDayOf (fields : Fields Field) : Except Error (Option Nat) :=
  match fields.lookup .day with
  | some s => do
      checkRange .isoDay (saturated s) 1 7
      return some (saturated s).toNat
  | none => .ok none

/-- A day of the month is kept to its low 8 bits and is looked at no further before the month is
known. -/
def dayOf (fields : Fields Field) : Option Nat :=
  (fields.lookup .day).map fun s => (saturated s % 256).toNat

def halfOf (fields : Fields Field) : MonthHalf :=
  if lower (letters fields .letter) = ['a'] then .a else .b

def romanOf (fields : Fields Field) : Nat :=
  match romanNumerals.idxOf? (lower (letters fields .number)) with
  | some i => i + 1
  | none => 6

-- Last, yester and every word that is spelled with a long s mean the period before.
def offsetOf (fields : Fields Field) : Int :=
  let relation := lower (letters fields .relation)
  if relation = "this".toList ∨ relation = "to".toList then 0
  else if relation = "next".toList then 1
  else -1

-- The ordinal of a weekday, one to five from either end of the month; the error shows its sign.
def nthOf (fields : Fields Field) : Except Error Int :=
  let nth := number fields .nth
  if 1 ≤ nth.natAbs ∧ nth.natAbs ≤ 5 then .ok nth else .error (.outOfRange .ordinalDay nth 1 5)

def build (form : Form) (fields : Fields Field) : Except Error Period :=
  match form with
  | .dayOfYear => do
      let day := number fields .day
      checkRange .dayOfYear day 1 366
      return .dayOfYear (yearOf fields) day.toNat
  | .month => do
      let month := number fields .month
      checkRange .monthNumber month 1 12
      return .month (yearOf fields) month.toNat (dayOf fields)
  | .isoWeek => do
      let week := number fields .number
      checkRange .weekNumber week 1 53
      return .isoWeek (yearOf fields) week.toNat (← isoDayOf fields)
  | .quarter => do
      let quarter := number fields .number
      checkRange .quarterNumber quarter 1 4
      return .quarter (yearOf fields) quarter.toNat
  | .half => do
      let half := number fields .number
      checkRange .halfNumber half 1 2
      return .half (yearOf fields) half.toNat
  | .year => .ok (.year ((yearOf fields).getD 0))
  | .halfMonth => do return .halfMonth (yearOf fields) (← monthOf fields) (halfOf fields)
  | .weekOfMonth => do return .weekOfMonth (yearOf fields) (← monthOf fields) (romanOf fields)
  | .nthWeekday => do
      let month ← monthOf fields
      let nth ← nthOf fields
      let weekday ← Weekday.read (letters fields .weekday)
      return .nthWeekday (yearOf fields) month nth weekday
  | .easter => do
      let offset := number fields .offset
      checkRange .easterOffset offset (-2147483648) 2147483647
      return .easter (yearOf fields) offset
  | .relative =>
      let word := lower (letters fields .chunk)
      if word = morrow then .ok (.relative .day 1)
      else do return .relative (← Chunk.read word) (offsetOf fields)
  | .forever => .ok .forever
  | .never => .ok .never

end Form

def Period.form : Period → Form
  | .dayOfYear .. => .dayOfYear
  | .month .. => .month
  | .isoWeek .. => .isoWeek
  | .quarter .. => .quarter
  | .half .. => .half
  | .year .. => .year
  | .halfMonth .. => .halfMonth
  | .weekOfMonth .. => .weekOfMonth
  | .nthWeekday .. => .nthWeekday
  | .easter .. => .easter
  | .relative .. => .relative
  | .forever => .forever
  | .never => .never

end Almanac
