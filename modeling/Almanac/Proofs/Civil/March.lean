import Almanac.Proofs.Civil.Order

set_option autoImplicit false

/-!
# Years from March

When years are taken to run from March to February, the leap day is the last day of its year and
the days before a month do not depend on the year.
-/

namespace Almanac.Civil

def marchYear (c : Civil) : Int :=
  if c.month ≤ 2 then c.year - 1 else c.year

def marchMonth (c : Civil) : Int :=
  (c.month + 9) % 12

def marchMonthsLength (count : Int) : Int :=
  (153 * count + 2) / 5

theorem monthsLength_two (year : Int) : monthsLength year 2 + 306 = yearLength year := by
  rw [← monthsLength_twelve]
  simp only [monthsLength, monthLength]

theorem monthsLength_early (year : Int) {month : Nat} (h : 1 ≤ month ∧ month ≤ 2) :
    (monthsLength year (month - 1) : Int) + 306 = marchMonthsLength (month + 9) := by
  have cases : month = 1 ∨ month = 2 := by omega
  rcases cases with rfl | rfl
  next => rfl
  next => rfl

theorem monthsLength_late (year : Int) {month : Nat} (h : 3 ≤ month ∧ month ≤ 12) :
    (monthsLength year (month - 1) : Int) =
      monthsLength year 2 + marchMonthsLength (month - 3) := by
  have cases : month = 3 ∨ month = 4 ∨ month = 5 ∨ month = 6 ∨ month = 7 ∨ month = 8 ∨
      month = 9 ∨ month = 10 ∨ month = 11 ∨ month = 12 := by omega
  rcases cases with rfl | rfl | rfl | rfl | rfl | rfl | rfl | rfl | rfl | rfl <;>
    simp only [monthsLength, monthLength, marchMonthsLength, Nat.reduceSub] <;>
    omega

-- A day's number is the number of days before its March year, before its month in that year, and
-- before the day in its month.
theorem dayNumber_march {c : Civil} (h : 1 ≤ c.month ∧ c.month ≤ 12) :
    c.dayNumber =
      daysBeforeYear (c.marchYear + 1) + marchMonthsLength c.marchMonth + c.day - 719469 := by
  rw [dayNumber_eq, dayOfYear]
  by_cases early : c.month ≤ 2
  next =>
    have months := monthsLength_early c.year ⟨h.1, early⟩
    have place : c.marchMonth = c.month + 9 := by unfold marchMonth; omega
    simp only [marchYear, if_pos early, place, Int.sub_add_cancel]
    omega
  next =>
    have months := monthsLength_late c.year (show 3 ≤ c.month ∧ c.month ≤ 12 by omega)
    have spring := monthsLength_two c.year
    have place : c.marchMonth = c.month - 3 := by unfold marchMonth; omega
    simp only [marchYear, if_neg early, place, daysBeforeYear_succ]
    omega

theorem monthLength_march (year : Int) {month : Nat} (h : 1 ≤ month ∧ month ≤ 12)
    (other : month ≠ 2) :
    (monthLength year month : Int) =
      marchMonthsLength ((month + 9) % 12 + 1) - marchMonthsLength ((month + 9) % 12) := by
  have cases : month = 1 ∨ month = 3 ∨ month = 4 ∨ month = 5 ∨ month = 6 ∨ month = 7 ∨ month = 8 ∨
      month = 9 ∨ month = 10 ∨ month = 11 ∨ month = 12 := by omega
  rcases cases with rfl | rfl | rfl | rfl | rfl | rfl | rfl | rfl | rfl | rfl | rfl <;> rfl

theorem monthLength_february (year : Int) : monthLength year 2 + 337 = yearLength year := by
  rw [← monthsLength_two]
  simp only [monthsLength, monthLength]
  omega

theorem years_of_leapDays (days century olympiad rest : Int)
    (inCycle : 0 ≤ days ∧ days < 146097) (hc : 0 ≤ century ∧ century ≤ 3)
    (ho : 0 ≤ olympiad ∧ olympiad ≤ 24) (hr : 0 ≤ rest ∧ rest ≤ 1460)
    (place : days = 36524 * century + 1461 * olympiad + rest)
    (short : rest = 1460 → olympiad < 24 ∨ century = 3) :
    (days - days / 1460 + days / 36524 - days / 146096) / 365 =
      100 * century + 4 * olympiad + min (rest / 365) 3 := by
  -- The last day of the cycle opens a fifth century, and the day by 146096 takes that back.
  have centuries : days / 36524 - days / 146096 = century := by
    by_cases last : days = 146096
    next =>
      subst last
      omega
    next =>
      have before : days / 146096 = 0 := by omega
      have inCentury : 1461 * olympiad + rest < 36524 := by omega
      omega
  have leapDays : days / 1460 =
      25 * century + olympiad + (24 * century + olympiad + rest) / 1460 := by
    omega
  have years : days - days / 1460 + days / 36524 - days / 146096 =
      365 * (100 * century + 4 * olympiad) + (rest - (24 * century + olympiad + rest) / 1460) := by
    omega
  have inOlympiad :
      (rest - (24 * century + olympiad + rest) / 1460) / 365 = min (rest / 365) 3 := by
    omega
  rw [years]
  omega

theorem yearAt_of_leapDays {days : Int} (h : 0 ≤ days ∧ days < 146097) :
    yearAt days = (days - days / 1460 + days / 36524 - days / 146096) / 365 + 1 := by
  have noCycle : days / 146097 = 0 := by omega
  have inCycle : days % 146097 = days := by omega
  -- Cut into cycles the last day of a cycle is kept in the fourth part.
  rw [years_of_leapDays days (min (days / 36524) 3)
    ((days - 36524 * min (days / 36524) 3) / 1461)
    ((days - 36524 * min (days / 36524) 3) % 1461)
    h (by omega) (by omega) (by omega) (by omega) (by omega)]
  simp only [yearAt, noCycle, inCycle]
  omega

theorem yearAt_cycle (days : Int) :
    yearAt days = 400 * (days / 146097) + yearAt (days % 146097) := by
  have noCycle : days % 146097 / 146097 = 0 := by omega
  simp only [yearAt, noCycle, Int.emod_emod]
  omega

theorem daysBeforeYear_cycle (cycle year : Int) :
    daysBeforeYear (400 * cycle + year) = 146097 * cycle + daysBeforeYear year := by
  unfold daysBeforeYear
  omega

def ofMarch (year days : Int) : Civil :=
  let place := (5 * days + 2) / 153
  let month := (if place < 10 then place + 3 else place - 9).toNat
  ⟨if month ≤ 2 then year + 1 else year, month, (days - marchMonthsLength place + 1).toNat⟩

theorem place_spec (days : Int) :
    marchMonthsLength ((5 * days + 2) / 153) ≤ days ∧
      days < marchMonthsLength ((5 * days + 2) / 153 + 1) := by
  unfold marchMonthsLength
  omega

theorem day_ofMarch (year days : Int) :
    ((ofMarch year days).day : Int) = days - marchMonthsLength ((5 * days + 2) / 153) + 1 := by
  have before := (place_spec days).1
  unfold ofMarch
  dsimp only
  omega

section ofMarch

variable {year days : Int} (inYear : 0 ≤ days ∧ days < yearLength (year + 1))

include inYear

theorem place_bounds : 0 ≤ (5 * days + 2) / 153 ∧ (5 * days + 2) / 153 ≤ 11 := by
  have length := yearLength_bounds (year + 1)
  omega

theorem marchMonth_ofMarch : (ofMarch year days).marchMonth = (5 * days + 2) / 153 := by
  have place := place_bounds inYear
  unfold marchMonth ofMarch
  dsimp only
  split <;> omega

theorem marchYear_ofMarch : (ofMarch year days).marchYear = year := by
  unfold marchYear ofMarch
  dsimp only
  split <;> omega

theorem month_ofMarch : 1 ≤ (ofMarch year days).month ∧ (ofMarch year days).month ≤ 12 := by
  have place := place_bounds inYear
  unfold ofMarch
  dsimp only
  split <;> omega

theorem valid_ofMarch : (ofMarch year days).Valid := by
  have months := month_ofMarch inYear
  have place := marchMonth_ofMarch inYear
  have day := day_ofMarch year days
  have inMonth := place_spec days
  refine ⟨months.1, months.2, by omega, ?_⟩
  by_cases february : (ofMarch year days).month = 2
  next =>
    have length := monthLength_february (year + 1)
    have sameYear : (ofMarch year days).year = year + 1 := by
      have := marchYear_ofMarch inYear
      simp only [marchYear, february] at this
      omega
    -- February ends with its year, so the length of the year bounds its days.
    have last : (5 * days + 2) / 153 = 11 := by
      simp only [marchMonth, february] at place
      omega
    have before : marchMonthsLength 11 = 337 := rfl
    rw [last] at day
    rw [february, sameYear]
    omega
  next =>
    have length := monthLength_march (ofMarch year days).year months february
    rw [show ((ofMarch year days).month + 9 : Int) % 12 = _ from place] at length
    omega

theorem dayNumber_ofMarch :
    (ofMarch year days).dayNumber = daysBeforeYear (year + 1) + days - 719468 := by
  rw [dayNumber_march (month_ofMarch inYear), marchYear_ofMarch inYear,
    marchMonth_ofMarch inYear, day_ofMarch]
  omega

end ofMarch

theorem ofDayNumber_march (n : Int) :
    ofDayNumber n = ofMarch (yearAt (n + 719468) - 1)
      (n + 719468 - daysBeforeYear (yearAt (n + 719468))) := by
  have bounds := yearAt_bounds (n + 719468)
  rw [daysBeforeYear_succ] at bounds
  -- The March year of a day is the year of a day that lies 306 days later, less one.
  have inYear : 0 ≤ n + 719468 - daysBeforeYear (yearAt (n + 719468)) ∧
      n + 719468 - daysBeforeYear (yearAt (n + 719468)) <
        yearLength (yearAt (n + 719468) - 1 + 1) := by
    rw [Int.sub_add_cancel]
    omega
  apply dayNumber_injective (valid_ofDayNumber n) (valid_ofMarch inYear)
  rw [dayNumber_ofDayNumber, dayNumber_ofMarch inYear, Int.sub_add_cancel]
  omega

end Almanac.Civil
