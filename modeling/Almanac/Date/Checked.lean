import Almanac.Error

set_option autoImplicit false

/-!
# Checked dates

The constructors that admit the years 1 to 9999 only, each with the first check that fails as its
error.
-/

namespace Almanac.Date

def ofSerial (serial : Int) : Except Error Date :=
  if earliest.serial ≤ serial ∧ serial ≤ latest.serial then .ok ⟨serial⟩
  else .error (.invalidDate (.serial serial))

def ofYearMonthDay (year : Int) (month day : Nat) : Except Error Date :=
  if ¬(1 ≤ year ∧ year ≤ 9999) then .error (.invalidDate (.year year))
  else if ¬(1 ≤ month ∧ month ≤ 12) then .error (.invalidDate (.month month))
  else if ¬(1 ≤ day ∧ day ≤ Civil.monthLength year month) then
    .error (.invalidDate (.day day (Civil.monthLength year month) year month))
  else .ok (on year month day)

def ofYearDay (year : Int) (day : Nat) : Except Error Date := do
  checkRange .dayOfYear day 1 (Civil.yearLength year)
  let first ← ofYearMonthDay year 1 1
  return first.plus (day - 1)

/-- The day with a year, month and day of the calendar, from the year -262143 to the year 262142, in
or out of the checked range. -/
def ofProleptic? (year : Int) (month day : Nat) : Option Date :=
  if Civil.Valid ⟨year, month, day⟩ ∧ -262143 ≤ year ∧ year ≤ 262142 then some (on year month day)
  else none

theorem ofSerial_eq_ok {serial : Int} {d : Date} :
    ofSerial serial = .ok d ↔ d.InRange ∧ d.serial = serial := by
  unfold ofSerial
  split
  next inside =>
    constructor
    next =>
      intro h
      cases h
      exact ⟨inside, rfl⟩
    next =>
      intro h
      rw [← h.2]
  next outside =>
    constructor
    next => intro h; cases h
    next =>
      intro h
      rcases h with ⟨inside, rfl⟩
      exact absurd inside outside

end Almanac.Date
