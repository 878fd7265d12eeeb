import Almanac.Easter
import Almanac.Proofs.Civil.March
import Almanac.Proofs.Week

set_option autoImplicit false

/-!
# The Julian calendar

Every fourth year is a leap year, so four Julian years are like the years 0 to 3 of the Gregorian
calendar. Those begin two days after the Julian years of the same numbers.
-/

namespace Almanac.Julian

def likeYear (year : Int) : Int :=
  year % 4

def Valid (c : Civil) : Prop :=
  Civil.Valid ⟨likeYear c.year, c.month, c.day⟩

instance (c : Civil) : Decidable (Valid c) :=
  inferInstanceAs (Decidable (Civil.Valid _))

def monthLength (year : Int) (month : Nat) : Nat :=
  Civil.monthLength (likeYear year) month

def following (c : Civil) : Civil :=
  if c.day < monthLength c.year c.month then ⟨c.year, c.month, c.day + 1⟩
  else if c.month < 12 then ⟨c.year, c.month + 1, 1⟩
  else ⟨c.year + 1, 1, 1⟩

def dayNumber (c : Civil) : Int :=
  1461 * (c.year / 4) + Civil.dayNumber ⟨likeYear c.year, c.month, c.day⟩ - 2

def date (year : Int) (month day : Nat) : Date :=
  ⟨dayNumber ⟨year, month, day⟩⟩

variable {year : Int} {month day : Nat}

theorem dayNumber_following {c : Civil} (valid : Valid c) :
    dayNumber (following c) = dayNumber c + 1 := by
  have next := Civil.dayNumber_following valid
  unfold Civil.following at next
  unfold following monthLength
  split
  next inMonth =>
    rw [if_pos inMonth] at next
    simp only [dayNumber] at next ⊢
    omega
  next monthEnd =>
    rw [if_neg monthEnd] at next
    split
    next inYear =>
      rw [if_pos inYear] at next
      simp only [dayNumber] at next ⊢
      omega
    next yearEnd =>
      rw [if_neg yearEnd] at next
      -- After the last year of four the next four begin, two days behind the Gregorian year 4.
      have begins (y : Int) : Civil.dayNumber ⟨y, 1, 1⟩ = Civil.daysBeforeYear y - 719162 := by
        have number := Civil.dayNumber_eq ⟨y, 1, 1⟩
        rw [show Civil.dayOfYear ⟨y, 1, 1⟩ = 1 from rfl] at number
        simp only at number
        omega
      simp only [dayNumber, begins] at next ⊢
      unfold likeYear Civil.daysBeforeYear at *
      omega

example : date 1582 10 5 = Date.on 1582 10 15 := by decide

theorem julianDay_eq (inYear : 1 ≤ month ∧ month ≤ 12) :
    Easter.julianDay year month day = (date year month day).serial + 2440588 := by
  have number := @Civil.dayNumber_march ⟨likeYear year, month, day⟩ inYear
  have early : (14 - (month : Int)) / 12 = if month ≤ 2 then 1 else 0 := by
    split <;> omega
  unfold Civil.marchYear Civil.marchMonth Civil.marchMonthsLength Civil.daysBeforeYear at number
  simp only [date, dayNumber, Easter.julianDay, early, number]
  unfold likeYear
  split <;> omega

theorem julianWeekday_eq (inYear : 1 ≤ month ∧ month ≤ 12) :
    Easter.julianWeekday year month day = (date year month day).weekday := by
  apply Weekday.sundayIndex_injective
  have index := Weekday.sundayIndex_afterSunday (Easter.julianDay year month day + 1)
  have weekday := (date year month day).sundayIndex_weekday
  rw [julianDay_eq inYear] at index
  rw [Easter.julianWeekday, julianDay_eq inYear]
  omega

end Almanac.Julian
