import Almanac.Date.Checked
import Almanac.Text.Pattern

set_option autoImplicit false

/-!
# Reading dates

Two notations are read: year, month and day with dashes between them, and month, day and year in
the American order with dashes or slashes.
-/

namespace Almanac.Date

open Text

def cutAtDash? (s : List Char) : Option (List Char × List Char) :=
  match s.dropWhile (· != '-') with
  | [] => none
  | _ :: rest => some (s.takeWhile (· != '-'), rest)

-- A year has to fit into 32 bits and a month or a day into 8, before it is looked at as such.
def isoFields? (text : List Char) : Option (Nat × Nat × Nat) := do
  let (year, rest) ← cutAtDash? (trim text)
  let (month, day) ← cutAtDash? rest
  return (← readNat? 2147483647 year, ← readNat? 255 month, ← readNat? 255 day)

def readIso (text : List Char) : Except Error Date :=
  match isoFields? text with
  | some (year, month, day) => ofYearMonthDay year month day
  | none => .error (.invalidDate (.isoText text))

namespace American

inductive Part
  | month | day | year
  deriving DecidableEq, Repr

def blanks : Pattern Part :=
  .many .blank

def separator : Pattern Part :=
  .sequence [blanks, .one (.among ['-', '/']), blanks]

def digits (low high : Nat) : Pattern Part :=
  .count .decimal low high

def pattern : Pattern Part :=
  .sequence
    [blanks, .field .month (digits 1 2), separator, .field .day (digits 1 2), separator,
      .field .year (.seq (.opt (digits 2 2)) (digits 2 2)), blanks]

/-- The number in a part; digits beyond ASCII count as nothing. -/
def number (fields : Fields Part) (part : Part) : Nat :=
  ((fields.lookup part).bind readDigits?).getD 0

end American

open American in
/-- A year below 100 lies in the 2000s. -/
def readAmerican (text : List Char) : Except Error Date :=
  match American.pattern.match? text with
  | some fields =>
      let year := number fields .year
      ofYearMonthDay (if year < 100 then year + 2000 else year) (number fields .month)
        (number fields .day)
  | none => .error (.invalidDate (.americanText text))

end Almanac.Date
