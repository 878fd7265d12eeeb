import Almanac.Proofs.Civil.March
import Almanac.Proofs.Date.Civil
import Almanac.Word

set_option autoImplicit false

/-!
# The calendar in machine words

Day numbers are reckoned here once more in words of 32 bits, with a division that cuts toward
zero. Each step fails when its result does not fit a word, and month and day have to fit a byte.
No step fails in the years -1000000 to 1000000, and the reckoning is that of the calendar.
-/

namespace Almanac.Word

-- A number before the start is moved down first, because the division cuts toward zero.
def movedDown? (n length : Int) : Option Int :=
  if 0 ≤ n then some n else sub? n (length - 1)

def cycle? (n length : Int) : Option Int := do
  div? (← movedDown? n length) length

def marchYear? (c : Civil) : Option Int :=
  if c.month ≤ 2 then sub? c.year 1 else some c.year

def marchMonthsLength? (count : Int) : Option Int := do
  div? (← add? (← mul? 153 count) 2) 5

def dayNumber? (c : Civil) : Option Int := do
  let year ← marchYear? c
  let cycle ← cycle? year 400
  let yearOfCycle ← sub? year (← mul? cycle 400)
  let place ← rem? (← add? c.month 9) 12
  let dayOfYear ← sub? (← add? (← marchMonthsLength? place) c.day) 1
  let leapYears ← sub? (← add? (← mul? yearOfCycle 365) (← div? yearOfCycle 4))
    (← div? yearOfCycle 100)
  let dayOfCycle ← add? leapYears dayOfYear
  sub? (← add? (← mul? cycle 146097) dayOfCycle) 719468

def yearOfCycle? (day : Int) : Option Int := do
  let common ← sub? day (← div? day 1460)
  div? (← sub? (← add? common (← div? day 36524)) (← div? day 146096)) 365

def monthAt? (place : Int) : Option Int :=
  if place < 10 then add? place 3 else sub? place 9

def yearAt? (marchYear : Int) (month : Nat) : Option Int :=
  if month ≤ 2 then add? marchYear 1 else some marchYear

def ofMarch? (year days : Int) : Option Civil := do
  let place ← div? (← add? (← mul? 5 days) 2) 153
  let day ← byte? (← add? (← sub? days (← marchMonthsLength? place)) 1)
  let month ← byte? (← monthAt? place)
  return ⟨← yearAt? year month, month, day⟩

def ofDayNumber? (n : Int) : Option Civil := do
  let days ← add? n 719468
  let cycle ← cycle? days 146097
  let dayOfCycle ← sub? days (← mul? cycle 146097)
  let yearOfCycle ← yearOfCycle? dayOfCycle
  let leapYears ← sub? (← add? (← mul? 365 yearOfCycle) (← div? yearOfCycle 4))
    (← div? yearOfCycle 100)
  let dayOfYear ← sub? dayOfCycle leapYears
  ofMarch? (← add? yearOfCycle (← mul? cycle 400)) dayOfYear

variable {n : Int}

theorem ofSundayIndex?_eq (low : 0 ≤ n) (high : n < 7) :
    Weekday.ofSundayIndex? n.toNat = some (Weekday.afterSunday n) := by
  have index := Weekday.sundayIndex_afterSunday n
  have found (w : Weekday) : Weekday.ofSundayIndex? w.sundayIndex = some w := by cases w <;> rfl
  rw [← found]
  congr 1
  omega

theorem afterSunday_emod (n : Int) : Weekday.afterSunday (n % 7) = Weekday.afterSunday n := by
  rw [Weekday.afterSunday, Weekday.afterSunday, Int.emod_emod]

theorem tdiv_moved_down {length : Int} (negative : n < 0) (positive : 0 < length) :
    (n - (length - 1)).tdiv length = n / length := by
  have rest := Int.emod_nonneg n (Int.ne_of_gt positive)
  have short := Int.emod_lt_of_pos n positive
  have parts := Int.mul_ediv_add_emod n length
  have place : n - (length - 1) =
      -((length - 1 - n % length) + length * (-(n / length))) := by
    rw [Int.mul_neg]
    omega
  rw [place, Int.neg_tdiv, Int.tdiv_eq_ediv_of_nonneg, Int.add_mul_ediv_left _ _ (by omega),
    Int.ediv_eq_zero_of_lt (by omega) (by omega)]
  · omega
  · rw [Int.mul_neg]
    omega

theorem cycle?_eq {length : Int} (positive : 0 < length) (low : length - 2147483648 ≤ n)
    (high : n < 2147483648) : cycle? n length = some (n / length) := by
  unfold cycle? movedDown?
  by_cases later : 0 ≤ n
  next => simp [later, div?_eq later high positive]
  next =>
    have above : n ≤ n / length := by
      apply Int.le_ediv_of_mul_le positive
      simpa using Int.mul_le_mul_of_nonpos_left (by omega : n ≤ 0) (by omega : 1 ≤ length)
    have below : n / length < 0 := Int.ediv_neg_of_neg_of_pos (by omega) positive
    have moved := sub?_eq (show -2147483648 ≤ n - (length - 1) by omega) (by omega)
    rw [if_neg later, moved, Option.bind_eq_bind, Option.bind_some, div?,
      tdiv_moved_down (by omega) positive]
    exact fit?_eq (by omega) (by omega)

theorem marchYear?_eq {c : Civil} (near : -2000000 ≤ c.year ∧ c.year ≤ 2000000) :
    marchYear? c = some c.marchYear := by
  unfold marchYear? Civil.marchYear
  split
  next => exact sub?_eq (by omega) (by omega)
  next => rfl

theorem marchMonthsLength?_eq (low : 0 ≤ n) (high : n ≤ 12) :
    marchMonthsLength? n = some (Civil.marchMonthsLength n) := by
  simp (disch := omega) [marchMonthsLength?, mul?_eq, add?_eq, div?_eq, Civil.marchMonthsLength]

theorem dayNumber?_eq_of_far {c : Civil} (valid : c.Valid)
    (near : -2000000 ≤ c.year ∧ c.year ≤ 2000000) : dayNumber? c = some c.dayNumber := by
  obtain ⟨first, last, low, high⟩ := valid
  have short := Civil.monthLength_bounds c.year c.month
  have years : -2000001 ≤ c.marchYear ∧ c.marchYear ≤ 2000000 := by
    unfold Civil.marchYear
    split <;> omega
  have months : Civil.marchMonthsLength ((c.month + 9) % 12) ≤ 337 ∧
      0 ≤ Civil.marchMonthsLength ((c.month + 9) % 12) := by
    unfold Civil.marchMonthsLength
    omega
  rw [Civil.dayNumber_march ⟨first, last⟩, Civil.marchMonth, Civil.daysBeforeYear, dayNumber?]
  simp (disch := omega) only [some_bind_eq, marchYear?_eq near, cycle?_eq, mul?_eq, sub?_eq,
    add?_eq, rem?_eq, marchMonthsLength?_eq, div?_eq]
  congr 1
  omega

theorem dayNumber?_eq {c : Civil} (valid : c.Valid)
    (near : -1000000 ≤ c.year ∧ c.year ≤ 1000000) : dayNumber? c = some c.dayNumber :=
  dayNumber?_eq_of_far valid (by omega)

theorem yearOfCycle?_eq (inCycle : 0 ≤ n ∧ n < 146097) :
    yearOfCycle? n = some (Civil.yearAt n - 1) := by
  rw [Civil.yearAt_of_leapDays inCycle, yearOfCycle?]
  simp (disch := omega) only [some_bind_eq, sub?_eq, add?_eq, div?_eq]
  congr 1
  omega

theorem monthAt?_eq (low : 0 ≤ n) (high : n ≤ 11) :
    monthAt? n = some (if n < 10 then n + 3 else n - 9) := by
  unfold monthAt?
  split
  next => exact add?_eq (by omega) (by omega)
  next => exact sub?_eq (by omega) (by omega)

theorem yearAt?_eq {month : Nat} (low : -2000000 ≤ n) (high : n ≤ 2000000) :
    yearAt? n month = some (if month ≤ 2 then n + 1 else n) := by
  unfold yearAt?
  split
  next => exact add?_eq (by omega) (by omega)
  next => rfl

theorem ofMarch?_eq {year : Int} (near : -2000000 ≤ year ∧ year ≤ 2000000)
    (inYear : 0 ≤ n ∧ n ≤ 365) : ofMarch? year n = some (Civil.ofMarch year n) := by
  have month : 0 ≤ (5 * n + 2) / 153 ∧ (5 * n + 2) / 153 ≤ 11 := by omega
  have day : 0 ≤ n - Civil.marchMonthsLength ((5 * n + 2) / 153) ∧
      n - Civil.marchMonthsLength ((5 * n + 2) / 153) < 31 := by
    unfold Civil.marchMonthsLength
    omega
  rw [ofMarch?]
  simp (disch := omega) only [some_bind_eq, mul?_eq, add?_eq, div?_eq, marchMonthsLength?_eq,
    sub?_eq, byte?_eq, monthAt?_eq, yearAt?_eq]
  rfl

theorem ofDayNumber?_eq (near : -365962028 ≤ n ∧ n ≤ 364523337) :
    ofDayNumber? n = some (Civil.ofDayNumber n) := by
  rw [Civil.ofDayNumber_march, Civil.yearAt_cycle, Civil.daysBeforeYear_cycle, ofDayNumber?]
  generalize hdays : n + 719468 = days
  have inCycle : 0 ≤ days % 146097 ∧ days % 146097 < 146097 := by omega
  have dayOfCycle : days - days / 146097 * 146097 = days % 146097 := by omega
  have years : 1 ≤ Civil.yearAt (days % 146097) ∧ Civil.yearAt (days % 146097) ≤ 400 := by
    rw [Civil.yearAt_of_leapDays inCycle]
    omega
  simp (disch := omega) only [some_bind_eq, add?_eq, cycle?_eq, mul?_eq, sub?_eq, dayOfCycle,
    yearOfCycle?_eq, hdays]
  have bounds := Civil.yearAt_bounds (days % 146097)
  generalize Civil.yearAt (days % 146097) = year at *
  have length := Civil.yearLength_bounds year
  rw [Civil.daysBeforeYear_succ] at bounds
  have leapYears : 365 * (year - 1) + (year - 1) / 4 - (year - 1) / 100 =
      Civil.daysBeforeYear year := by
    unfold Civil.daysBeforeYear
    omega
  simp (disch := omega) only [some_bind_eq, add?_eq, sub?_eq, div?_eq, leapYears, ofMarch?_eq]
  congr 2
  all_goals omega

end Almanac.Word

namespace Almanac.Civil

def Near (c : Civil) : Prop :=
  c.Valid ∧ -Date.farYear ≤ c.year ∧ c.year ≤ Date.farYear

instance (c : Civil) : Decidable c.Near :=
  inferInstanceAs (Decidable (_ ∧ _))

theorem near_iff_representable {c : Civil} (valid : c.Valid) :
    c.Near ↔ (Date.ofCivil c).Representable := by
  have year : (Date.ofCivil c).year = c.year := Date.year_on valid
  rw [Date.representable_iff, year]
  exact and_iff_right valid

theorem near_ofDayNumber {n : Int} (low : Date.floor.serial ≤ n) (high : n ≤ Date.ceiling.serial) :
    (ofDayNumber n).Near := by
  have same : Date.ofCivil (ofDayNumber n) = ⟨n⟩ := Date.ext (dayNumber_ofDayNumber n)
  rw [near_iff_representable (valid_ofDayNumber n), same]
  exact ⟨low, high⟩

/-- Days and their numbers belong to each other one to one and in order, the next number is that of
the next day on the calendar, and words of 32 bits suffice for both ways. -/
theorem dayNumber_calendar_order :
    (∀ c : Civil, c.Near →
      Date.floor.serial ≤ c.dayNumber ∧ c.dayNumber ≤ Date.ceiling.serial ∧
        ofDayNumber c.dayNumber = c ∧ Word.dayNumber? c = some c.dayNumber) ∧
    (∀ n : Int, Date.floor.serial ≤ n → n ≤ Date.ceiling.serial →
      (ofDayNumber n).Near ∧ (ofDayNumber n).dayNumber = n ∧
        Word.ofDayNumber? n = some (ofDayNumber n) ∧
        ofDayNumber (n + 1) = (ofDayNumber n).following) ∧
    (∀ a b : Civil, a.Near → b.Near → (a.dayNumber < b.dayNumber ↔ a.Before b)) := by
  refine ⟨?_, ?_, ?_⟩
  next =>
    intro c near
    obtain ⟨low, high⟩ := (near_iff_representable near.1).mp near
    exact ⟨low, high, ofDayNumber_dayNumber near.1, Word.dayNumber?_eq near.1 near.2⟩
  next =>
    intro n low high
    exact ⟨near_ofDayNumber low high, dayNumber_ofDayNumber n, Word.ofDayNumber?_eq ⟨low, high⟩,
      ofDayNumber_succ n⟩
  next =>
    intro a b ha hb
    exact dayNumber_lt_iff ha.1 hb.1

theorem dayNumber_calendar_order_cycle_end :
    Word.dayNumber? ⟨-400, 2, 29⟩ = some (-865566) ∧
      Word.ofDayNumber? (-865566) = some ⟨-400, 2, 29⟩ ∧
      ofDayNumber (-865565) = ⟨-400, 3, 1⟩ := by
  obtain ⟨days, numbers, -⟩ := dayNumber_calendar_order
  obtain ⟨-, -, -, day⟩ := days ⟨-400, 2, 29⟩ (by decide)
  obtain ⟨-, -, number, next⟩ := numbers (-865566) (by decide) (by decide)
  exact ⟨day, number, next⟩

end Almanac.Civil
