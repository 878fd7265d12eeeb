import Almanac.Chunk

set_option autoImplicit false

/-!
# Periods

A period is named in words before it is looked up in the calendar: a year or a month that its name
leaves out is the current one, and some names count from today. A skip moves an end of the period
to a day of the week near it.
-/

namespace Almanac

inductive MonthHalf
  | a | b
  deriving DecidableEq, Repr

def MonthHalf.name : MonthHalf → String
  | .a => "A"
  | .b => "B"

inductive Period
  | dayOfYear (year : Option Int) (day : Nat)
  | month (year : Option Int) (month : Nat) (day : Option Nat)
  | isoWeek (year : Option Int) (week : Nat) (day : Option Nat)
  | quarter (year : Option Int) (quarter : Nat)
  | half (year : Option Int) (half : Nat)
  | year (year : Int)
  | halfMonth (year : Option Int) (month : Option Nat) (half : MonthHalf)
  | weekOfMonth (year : Option Int) (month : Option Nat) (week : Nat)
  | nthWeekday (year : Option Int) (month : Option Nat) (nth : Int) (weekday : Weekday)
  | easter (year : Option Int) (offset : Int)
  | relative (chunk : Chunk) (offset : Int)
  | forever
  | never
  deriving DecidableEq, Repr

structure Skip where
  direction : Direction
  inclusive : Bool
  weekday : Weekday
  deriving DecidableEq, Repr

structure Spec where
  period : Period
  skip : Option Skip
  deriving DecidableEq, Repr

inductive Edge
  | first | last
  deriving DecidableEq, Repr, Inhabited

namespace Edge

def name : Edge → String
  | .first => "from"
  | .last => "to"

def read (text : List Char) : Except Error Edge :=
  let name := Text.lower (Text.trim text)
  if name = Edge.first.name.toList then .ok .first
  else if name = Edge.last.name.toList then .ok .last
  else .error (.unknownEdge text)

def pick {α : Type} (edge : Edge) (first last : α) : α :=
  match edge with
  | .first => first
  | .last => last

end Edge

/-- A skip that leaves the date out moves by a whole week from its own day. -/
def Skip.apply (skip : Skip) (d : Date) : Date :=
  let distance :=
    match skip.direction with
    | .before => skip.weekday.daysUntil d.weekday
    | .after => d.weekday.daysUntil skip.weekday
  let days := if distance = 0 ∧ ¬skip.inclusive then 7 else distance
  match skip.direction with
  | .before => d.minus days
  | .after => d.plus days

def Weekday.read (text : List Char) : Except Error Weekday :=
  match Weekday.ofName? text with
  | some w => .ok w
  | none => .error (.unknownWeekday (Text.trim text))

end Almanac
