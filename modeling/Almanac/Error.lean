import Almanac.Date.Basic

set_option autoImplicit false

/-!
# Errors

An error is its cause: which rule a request broke, and the values that broke it. The wording is
`Error.message`.
-/

namespace Almanac

inductive Quantity
  | monthNumber | ordinalDay | dayOfYear | weekNumber | isoDay
  | quarterNumber | halfNumber | easterOffset
  deriving DecidableEq, Repr

def Quantity.name : Quantity → String
  | .monthNumber => "month number"
  | .ordinalDay => "ordinal day number"
  | .dayOfYear => "day-of-year"
  | .weekNumber => "week number"
  | .isoDay => "ISO day number"
  | .quarterNumber => "quarter number"
  | .halfNumber => "half number"
  | .easterOffset => "Easter offset"

inductive DateFault
  | year (year : Int)
  | month (month : Nat)
  | day (day length : Nat) (year : Int) (month : Nat)
  | serial (serial : Int)
  | week (year : Int) (week : Nat)
  | sum (date : Date) (days : Int)
  | isoText (text : List Char)
  | americanText (text : List Char)
  deriving DecidableEq, Repr

inductive Absence
  | weekday (nth : Int) (weekday : Weekday) (year : Int) (month : Nat)
  | week (week : Nat) (year : Int) (month : Nat)
  deriving DecidableEq, Repr

inductive Error
  | unknownChunk (name : List Char)
  | outOfRange (quantity : Quantity) (value low high : Int)
  | noSuchOccurrence (absence : Absence)
  | unrecognizedSpec (text : List Char)
  | undefinedEaster (year : Int)
  | invalidDate (fault : DateFault)
  | unknownWeekday (name : List Char)
  | unknownEdge (name : List Char)
  deriving DecidableEq, Repr

open Text (written padded)

-- The sign is part of the numeral; the letters go by the number without it.
def ordinalNumeral (n : Int) : String :=
  let letters :=
    if 11 ≤ n.natAbs % 100 ∧ n.natAbs % 100 ≤ 13 then "th"
    else match n.natAbs % 10 with
      | 1 => "st"
      | 2 => "nd"
      | 3 => "rd"
      | _ => "th"
  written n ++ letters

def yearMonth (year : Int) (month : Nat) : String :=
  String.ofList (padded 4 year ++ '-' :: padded 2 month)

def quoted (text : List Char) : String :=
  "'" ++ String.ofList text ++ "'"

def interval (low high : String) : String :=
  "[" ++ low ++ ", " ++ high ++ "]"

def DateFault.message : DateFault → String
  | .year y => "year " ++ written y ++ " out of range " ++ interval "1" "9999"
  | .month m => "month " ++ written m ++ " out of range " ++ interval "1" "12"
  | .day d length y m =>
      "day " ++ written d ++ " out of range " ++ interval "1" (written length) ++
        " for " ++ yearMonth y m
  | .serial n =>
      "serial " ++ written n ++ " outside " ++ interval Date.earliest.text Date.latest.text
  | .week y w => "week-year " ++ written y ++ " has no week " ++ written w
  | .sum date n => date.text ++ " + " ++ written n ++ " days overflows"
  | .isoText text => "expected YYYY-MM-DD, got " ++ quoted text
  | .americanText text => "date string must be of form 'MM?/DD?/YY(YY)?': " ++ quoted text

def Absence.message : Absence → String
  | .weekday nth w y m =>
      "there is no " ++ ordinalNumeral nth ++ " " ++ w.name ++ " in " ++ yearMonth y m
  | .week w y m => "no week number " ++ written w ++ " in " ++ yearMonth y m

def Error.message : Error → String
  | .unknownChunk name => "unknown chunk: " ++ quoted name
  | .outOfRange quantity value low high =>
      "invalid " ++ quantity.name ++ " (" ++ written low ++ "-" ++ written high ++ "): '" ++
        written value ++ "'"
  | .noSuchOccurrence absence => absence.message
  | .unrecognizedSpec text => "unrecognized date spec: " ++ quoted text
  | .undefinedEaster year => "Easter is undefined before the year 30, got " ++ written year
  | .invalidDate fault => "invalid date: " ++ fault.message
  | .unknownWeekday name => "there is no weekday named " ++ quoted name
  | .unknownEdge name => "invalid date spec type: " ++ quoted name

def checkRange (quantity : Quantity) (value low high : Int) : Except Error Unit :=
  if low ≤ value ∧ value ≤ high then .ok () else .error (.outOfRange quantity value low high)

theorem checkRange_eq_ok {quantity : Quantity} {value low high : Int} :
    checkRange quantity value low high = .ok () ↔ low ≤ value ∧ value ≤ high := by
  unfold checkRange
  split <;> simp_all

end Almanac
