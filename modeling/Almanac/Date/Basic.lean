import Almanac.Civil
import Almanac.Month
import Almanac.Text.Numeral
import Almanac.Weekday

set_option autoImplicit false

/-!
# Dates

A date is the number of its day. Adding and subtracting days stops at the ends of the years
-1000000 and 1000000, so a period that reaches past the years 1 to 9999 still has both its ends;
the checked constructors of the other modules admit the years 1 to 9999 only.
-/

namespace Almanac

/-- A day, numbered so that 1970-01-01 is 0. -/
structure Date where
  serial : Int
  deriving DecidableEq, Repr

namespace Date

instance : LE Date := ⟨fun a b => a.serial ≤ b.serial⟩
instance : LT Date := ⟨fun a b => a.serial < b.serial⟩
instance (a b : Date) : Decidable (a ≤ b) := inferInstanceAs (Decidable (a.serial ≤ b.serial))
instance (a b : Date) : Decidable (a < b) := inferInstanceAs (Decidable (a.serial < b.serial))
instance : Ord Date := ⟨fun a b => compare a.serial b.serial⟩
instance : Min Date := minOfLe
instance : Max Date := maxOfLe

theorem le_def {a b : Date} : a ≤ b ↔ a.serial ≤ b.serial := Iff.rfl

theorem lt_def {a b : Date} : a < b ↔ a.serial < b.serial := Iff.rfl

theorem ext {a b : Date} (h : a.serial = b.serial) : a = b := by
  cases a
  cases b
  exact congrArg Date.mk h

def ofCivil (c : Civil) : Date :=
  ⟨c.dayNumber⟩

def civil (d : Date) : Civil :=
  Civil.ofDayNumber d.serial

@[simp] theorem ofCivil_civil (d : Date) : ofCivil d.civil = d :=
  ext (Civil.dayNumber_ofDayNumber d.serial)

def on (year : Int) (month day : Nat) : Date :=
  ofCivil ⟨year, month, day⟩

def year (d : Date) : Int :=
  d.civil.year

def month (d : Date) : Nat :=
  d.civil.month

def day (d : Date) : Nat :=
  d.civil.day

def weekday (d : Date) : Weekday :=
  -- Day 0 was a Thursday.
  Weekday.afterSunday (d.serial + 4)

def isWeekend (d : Date) : Bool :=
  d.weekday.isWeekend

def dayOfYear (d : Date) : Nat :=
  (d.serial - (on d.year 1 1).serial + 1).toNat

def monthLength (d : Date) : Nat :=
  Civil.monthLength d.year d.month

def half (d : Date) : Nat :=
  Month.spanOf 6 d.month

def quarter (d : Date) : Nat :=
  Month.spanOf 3 d.month

def bimonth (d : Date) : Nat :=
  Month.spanOf 2 d.month

def semimonth (d : Date) : Nat :=
  (d.month - 1) * 2 + if d.day ≤ 15 then 1 else 2

-- The first and the last day that the checked constructors admit.
def earliest : Date := on 1 1 1
def latest : Date := on 9999 12 31

def beginningOfTime : Date := on 1900 1 1
def endOfTime : Date := on 3000 12 31

def farYear : Int := 1000000

/-- The two days at which adding and subtracting stops. -/
def floor : Date := on (-farYear) 1 1
def ceiling : Date := on farYear 12 31

def InRange (d : Date) : Prop :=
  earliest ≤ d ∧ d ≤ latest

instance (d : Date) : Decidable d.InRange :=
  inferInstanceAs (Decidable (_ ∧ _))

def Representable (d : Date) : Prop :=
  floor ≤ d ∧ d ≤ ceiling

instance (d : Date) : Decidable d.Representable :=
  inferInstanceAs (Decidable (_ ∧ _))

-- The day with a number, or the nearest day at which adding stops.
def saturate (serial : Int) : Date :=
  ⟨max floor.serial (min serial ceiling.serial)⟩

def plus (d : Date) (n : Int) : Date :=
  saturate (d.serial + n)

def minus (d : Date) (n : Int) : Date :=
  saturate (d.serial - n)

def next (d : Date) : Date :=
  d.plus 1

def previous (d : Date) : Date :=
  d.minus 1

def daysTo (a b : Date) : Int :=
  b.serial - a.serial

/-- Year, month and day with dashes between them, the year in four places or more, its sign among
them, and month and day in two. -/
def chars (d : Date) : List Char :=
  Text.padded 4 d.year ++ '-' :: Text.padded 2 d.month ++ '-' :: Text.padded 2 d.day

def text (d : Date) : String :=
  String.ofList d.chars

def description (d : Date) : String :=
  "Date(" ++ d.text ++ ")"

@[simp] theorem floor_serial : floor.serial = -365962028 := rfl

@[simp] theorem ceiling_serial : ceiling.serial = 364523337 := rfl

@[simp] theorem earliest_serial : earliest.serial = -719162 := rfl

@[simp] theorem latest_serial : latest.serial = 2932896 := rfl

theorem representable_saturate (n : Int) : (saturate n).Representable := by
  constructor
  next => simp only [le_def, saturate, floor_serial, ceiling_serial]; omega
  next => simp only [le_def, saturate, floor_serial, ceiling_serial]; omega

theorem saturate_serial {d : Date} (h : d.Representable) : saturate d.serial = d := by
  simp only [Representable, le_def, floor_serial, ceiling_serial] at h
  apply ext
  simp only [saturate, floor_serial, ceiling_serial]
  omega

theorem plus_serial {d : Date} {n : Int}
    (h : floor.serial ≤ d.serial + n ∧ d.serial + n ≤ ceiling.serial) :
    (d.plus n).serial = d.serial + n := by
  simp only [plus, saturate]
  omega

theorem valid_civil (d : Date) : d.civil.Valid :=
  Civil.valid_ofDayNumber d.serial

end Date

inductive Direction
  | before | after
  deriving DecidableEq, Repr

namespace Direction

def step : Direction → Date → Date
  | .before, d => d.previous
  | .after, d => d.next

def room : Direction → Date → Nat
  | .before, d => (d.serial - Date.floor.serial).toNat
  | .after, d => (Date.ceiling.serial - d.serial).toNat

theorem room_step (dir : Direction) (d : Date) (h : 0 < dir.room d) :
    dir.room (dir.step d) < dir.room d := by
  cases dir <;>
    simp only [room, step, Date.next, Date.previous, Date.plus, Date.minus, Date.saturate,
      Date.floor_serial, Date.ceiling_serial] at h ⊢ <;>
    omega

end Direction

end Almanac
