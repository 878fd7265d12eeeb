import Almanac.Proofs.Civil.Word
import Almanac.Proofs.Date.Representable

set_option autoImplicit false

/-!
# Dates in machine words

Adding and subtracting days stops at the ends of the words before it stops at the ends of the years.
Years, months and days come from the reckoning in words, days of the week and of the month are kept
in bytes. No step fails on a date that adding can reach, and each leads where the calendar does.
-/

namespace Almanac.Word

def clip (n : Int) : Int :=
  max (-2147483648) (min n 2147483647)

def plus (d : Date) (n : Int) : Date :=
  Date.saturate (clip (d.serial + n))

def minus (d : Date) (n : Int) : Date :=
  Date.saturate (clip (d.serial - n))

def civil? (d : Date) : Option Civil :=
  ofDayNumber? d.serial

def on? (year : Int) (month day : Nat) : Option Date := do
  return ⟨← dayNumber? ⟨year, month, day⟩⟩

def weekday? (d : Date) : Option Weekday := do
  Weekday.ofSundayIndex? (← byte? ((← add? d.serial 4) % 7))

def daysUntil? (a b : Weekday) : Option Nat := do
  return (← subByte? (← addByte? b.sundayIndex 7) a.sundayIndex) % 7

def isLeap? (year : Int) : Option Bool := do
  let four ← rem? year 4
  let hundred ← rem? year 100
  let cycle ← rem? year 400
  return (four == 0 && hundred != 0) || cycle == 0

def monthLength? (year : Int) (month : Nat) : Option Nat :=
  match month with
  | 1 | 3 | 5 | 7 | 8 | 10 | 12 => some 31
  | 4 | 6 | 9 | 11 => some 30
  | _ => do return if ← isLeap? year then 29 else 28

def startOfMonth? (d : Date) : Option Date := do
  let c ← civil? d
  on? c.year c.month 1

def endOfMonth? (d : Date) : Option Date := do
  let c ← civil? d
  on? c.year c.month (← monthLength? c.year c.month)

-- The months are moved by a number that is cut to a word, and their count is cut to the years at
-- which adding stops.
def shiftMonths? (d : Date) (n : Int) : Option Date := do
  let c ← civil? d
  let months ← add? (← mul? c.year 12) (← sub? c.month 1)
  let index := max (-12000000) (min (clip (months + n)) 12000011)
  let month ← byte? (← add? (index % 12) 1)
  on? (index / 12) month (min c.day (← monthLength? (index / 12) month))

def addDays? (d : Date) (n : Int) : Option (Except Error Date) :=
  if Date.IsWord (d.serial + n) then some (Date.ofSerial (d.serial + n))
  else do
    -- The error shows the date.
    let _ ← civil? d
    return .error (.invalidDate (.sum d n))

def addMonths? (d : Date) (n : Int) : Option (Except Error Date) := do
  return Date.ofSerial (← shiftMonths? d n).serial

def addYears? (d : Date) (n : Int) : Option (Except Error Date) :=
  addMonths? d (clip (12 * n))

variable {d : Date} {year n : Int} {month day : Nat}

theorem plus_eq (d : Date) (n : Int) : plus d n = d.plus n := by
  apply Date.ext
  simp only [plus, Date.plus, Date.saturate, clip, Date.floor_serial, Date.ceiling_serial]
  omega

theorem minus_eq (d : Date) (n : Int) : minus d n = d.minus n := by
  apply Date.ext
  simp only [minus, Date.minus, Date.saturate, clip, Date.floor_serial, Date.ceiling_serial]
  omega

theorem on?_eq (valid : Civil.Valid ⟨year, month, day⟩) (near : -2000000 ≤ year ∧ year ≤ 2000000) :
    on? year month day = some (Date.on year month day) := by
  rw [on?, dayNumber?_eq_of_far valid near]
  rfl

theorem daysUntil?_eq (a b : Weekday) : daysUntil? a b = some (a.daysUntil b) := by
  have first := a.sundayIndex_lt
  have second := b.sundayIndex_lt
  simp (disch := omega) only [daysUntil?, some_bind_eq, addByte?_eq, subByte?_eq]
  rfl

theorem weekday?_eq (near : -1000000000 ≤ d.serial ∧ d.serial ≤ 1000000000) :
    weekday? d = some d.weekday := by
  simp (disch := omega) only [weekday?, some_bind_eq, add?_eq, byte?_eq, ofSundayIndex?_eq,
    afterSunday_emod]
  rfl

theorem rem?_eq_tmod {length : Int} (positive : 0 < length) (short : length ≤ 400) :
    rem? n length = some (n.tmod length) := by
  have low := Int.lt_tmod_of_pos n positive
  have high := Int.tmod_lt_of_pos n positive
  exact fit?_eq (by omega) (by omega)

theorem isLeap?_eq (year : Int) : isLeap? year = some (Civil.isLeap year) := by
  have whole (length : Int) : year.tmod length = 0 ↔ year % length = 0 := by
    rw [← Int.dvd_iff_tmod_eq_zero, Int.dvd_iff_emod_eq_zero]
  simp only [isLeap?, rem?_eq_tmod (by decide : (0 : Int) < 4) (by decide),
    rem?_eq_tmod (by decide : (0 : Int) < 100) (by decide),
    rem?_eq_tmod (by decide : (0 : Int) < 400) (by decide), some_bind_eq]
  refine congrArg some ?_
  rw [Bool.eq_iff_iff]
  simp [Civil.isLeap, whole]

theorem monthLength?_eq (year : Int) (month : Nat) :
    monthLength? year month = some (Civil.monthLength year month) := by
  unfold monthLength?
  split
  case h_12 => simp [isLeap?_eq, Civil.monthLength, *]
  all_goals rfl

theorem monthLength?_date (d : Date) : monthLength? d.year d.month = some d.monthLength :=
  monthLength?_eq d.year d.month

section

variable (inYears : d.Representable)

include inYears

theorem civil?_eq : civil? d = some ⟨d.year, d.month, d.day⟩ :=
  ofDayNumber?_eq inYears.serial_bounds

theorem on?_inMonth {day : Nat} (h : 1 ≤ day ∧ day ≤ d.monthLength) :
    on? d.year d.month day = some (Date.on d.year d.month day) := by
  have years := inYears.year_bounds
  exact on?_eq (d.valid_inMonth h) (by omega)

theorem on?_startOfMonth : on? d.year d.month 1 = some d.startOfMonth := by
  have length := d.monthLength_bounds
  exact on?_inMonth inYears (by omega)

theorem startOfMonth?_eq : startOfMonth? d = some d.startOfMonth := by
  simp only [startOfMonth?, civil?_eq inYears, some_bind_eq, on?_startOfMonth inYears]

theorem endOfMonth?_eq : endOfMonth? d = some d.endOfMonth := by
  have length := d.monthLength_bounds
  simp only [endOfMonth?, civil?_eq inYears, monthLength?_date, some_bind_eq]
  exact on?_inMonth inYears (by omega)

theorem shiftMonths?_eq (n : Int) : shiftMonths? d n = some (d.shiftMonths n) := by
  have years := inYears.year_bounds
  have months := d.month_bounds
  obtain ⟨index, reached⟩ : ∃ i, max (-12000000) (min (d.monthIndex + n) 12000011) = i := ⟨_, rfl⟩
  have moved : d.shiftMonths n = Date.ofMonthIndex index d.day := by
    rw [← reached]
    rfl
  have clipped :
      max (-12000000) (min (clip (d.year * 12 + ((d.month : Int) - 1) + n)) 12000011) = index := by
    simp only [clip, Date.monthIndex] at reached ⊢
    omega
  have month : (index % 12 + 1).toNat = (index % 12).toNat + 1 := by omega
  simp (disch := omega) only [shiftMonths?, civil?_eq inYears, some_bind_eq, mul?_eq, sub?_eq,
    add?_eq, clipped, byte?_eq, monthLength?_eq, month]
  rw [moved]
  exact on?_eq (Date.valid_ofMonthIndex d.day_bounds.1) (by omega)

theorem addDays?_eq (n : Int) : addDays? d n = some (d.addDays n) := by
  simp only [addDays?, Date.addDays, civil?_eq inYears, some_bind_eq]
  split <;> rfl

theorem addMonths?_eq (n : Int) : addMonths? d n = some (d.addMonths n) := by
  rw [addMonths?, shiftMonths?_eq inYears]
  rfl

theorem shiftMonths_clip (n : Int) : d.shiftMonths (clip n) = d.shiftMonths n := by
  have bounds := inYears.monthIndex_bounds
  simp only [Date.shiftMonths, Date.farYear, clip]
  congr 1
  omega

theorem addYears?_eq (n : Int) : addYears? d n = some (d.addYears n) := by
  rw [addYears?, addMonths?_eq inYears, Date.addMonths, shiftMonths_clip inYears]
  rfl

theorem plus_clip (n : Int) : plus d (clip n) = d.plus n := by
  have bounds := inYears.serial_bounds
  apply Date.ext
  simp only [plus, Date.plus, Date.saturate, clip, Date.floor_serial, Date.ceiling_serial]
  omega

end

end Almanac.Word
