import Almanac.Easter
import Almanac.Proofs.Date.Checked

set_option autoImplicit false

/-!
# When Easter falls

Both reckonings keep Easter between March 22 and April 25.
-/

namespace Almanac

namespace Easter

def InSeason (monthDay : Nat × Nat) : Prop :=
  (monthDay.1 = 3 ∧ 22 ≤ monthDay.2 ∧ monthDay.2 ≤ 31) ∨
    (monthDay.1 = 4 ∧ 1 ≤ monthDay.2 ∧ monthDay.2 ≤ 25)

theorem InSeason.valid {monthDay : Nat × Nat} (season : InSeason monthDay) (year : Int) :
    Civil.Valid ⟨year, monthDay.1, monthDay.2⟩ := by
  rcases season with ⟨march, low, high⟩ | ⟨april, low, high⟩
  next =>
    have length : Civil.monthLength year 3 = 31 := rfl
    simp only [Civil.Valid, march, length]
    omega
  next =>
    have length : Civil.monthLength year 4 = 30 := rfl
    simp only [Civil.Valid, april, length]
    omega

section

variable {sunday d : Date} (season : InSeason (sunday.month, sunday.day))

include season

theorem InSeason.between :
    Date.on sunday.year 3 22 ≤ sunday ∧ sunday ≤ Date.on sunday.year 4 25 := by
  have first := Date.valid_middle sunday.year (show 1 ≤ 3 ∧ 3 ≤ 12 by decide)
    (show 1 ≤ 22 ∧ 22 ≤ 28 by decide)
  have last := Date.valid_middle sunday.year (show 1 ≤ 4 ∧ 4 ≤ 12 by decide)
    (show 1 ≤ 25 ∧ 25 ≤ 28 by decide)
  simp only [InSeason] at season
  rw [Date.on_le_iff first, Date.le_on_iff last]
  omega

theorem InSeason.friday_between (friday : d.serial = sunday.serial - 2) :
    Date.on sunday.year 3 20 ≤ d ∧ d ≤ Date.on sunday.year 4 23 := by
  have bounds := season.between
  have march := Date.on_serial sunday.year 3
  have april := Date.on_serial sunday.year 4
  simp only [Date.le_def, march 20, march 22, april 23, april 25] at bounds ⊢
  omega

theorem InSeason.month_before (d : Date)
    (near : sunday.serial - 2 ≤ d.serial ∧ d.serial ≤ sunday.serial) :
    d.year = sunday.year ∧ (d.month = 3 ∨ d.month = 4) := by
  obtain ⟨low, -⟩ := @season.friday_between _ ⟨sunday.serial - 2⟩ rfl
  have high := season.between.2
  have first := Date.valid_middle sunday.year (show 1 ≤ 3 ∧ 3 ≤ 12 by decide)
    (show 1 ≤ 20 ∧ 20 ≤ 28 by decide)
  have last := Date.valid_middle sunday.year (show 1 ≤ 4 ∧ 4 ≤ 12 by decide)
    (show 1 ≤ 25 ∧ 25 ≤ 28 by decide)
  have after := (@Date.on_le_iff d _ _ _ first).mp (Int.le_trans low near.1)
  have upTo := (@Date.le_on_iff d _ _ _ last).mp (Int.le_trans near.2 high)
  omega

end

theorem fullMoons_bounds : ∀ moon ∈ fullMoons,
    (moon.1 = 3 ∧ 21 ≤ moon.2 ∧ moon.2 ≤ 31) ∨ (moon.1 = 4 ∧ 1 ≤ moon.2 ∧ moon.2 ≤ 18) := by
  decide

theorem getElem?_fullMoons (year : Int) :
    fullMoons[(year % 19).toNat]? = some (fullMoon year) := by
  have within : (year % 19).toNat < fullMoons.length := by
    simp only [fullMoons, List.length_cons, List.length_nil]
    omega
  rw [fullMoon, List.getD_eq_getElem?_getD, List.getElem?_eq_getElem within, Option.getD_some]

theorem fullMoon_mem (year : Int) : fullMoon year ∈ fullMoons :=
  List.mem_of_getElem? (getElem?_fullMoons year)

theorem julian_inSeason (year : Int) : InSeason (julian year) := by
  have moon := fullMoons_bounds _ (fullMoon_mem year)
  have index := (julianWeekday year (fullMoon year).1 (fullMoon year).2).sundayIndex_lt
  simp only [julian, InSeason]
  split
  next => omega
  next => omega

theorem gregorian_inSeason (year : Int) : InSeason (gregorian year) := by
  simp only [gregorian, InSeason]
  generalize (19 * (year % 19) + year / 100 - year / 100 / 4 - _ + 15) = age
  generalize 32 + 2 * (year / 100 % 4) + 2 * (year % 100 / 4) - age % 30 - year % 100 % 4 = ahead
  -- A late moon takes the week off again, so the sum ends before April 26.
  generalize hlate : (year % 19 + 11 * (age % 30) + 22 * (ahead % 7)) / 451 = late
  omega

theorem monthDay_inSeason (year reformYear : Int) : InSeason (monthDay year reformYear) := by
  unfold monthDay
  split
  next => exact julian_inSeason year
  next => exact gregorian_inSeason year

end Easter

namespace Date

variable {year reformYear : Int}

theorem easter_of_early (early : year < 30) :
    easter year reformYear = .error (.undefinedEaster year) :=
  if_pos early

theorem easter_of_beyond (beyond : 9999 < year) :
    easter year reformYear = .error (.invalidDate (.year year)) := by
  rw [easter, if_neg (by omega), ofYearMonthDay, if_pos (by omega)]

theorem easter_of_reformed (known : 30 ≤ year ∧ year ≤ 9999) (reformed : reformYear < year) :
    easter year reformYear =
      .ok (on year (Easter.gregorian year).1 (Easter.gregorian year).2) := by
  rw [easter, if_neg (by omega), Easter.monthDay, if_neg (by omega)]
  exact ofYearMonthDay_of_valid (by omega) ((Easter.gregorian_inSeason year).valid year)

theorem easter_inSeason {sunday : Date} (h : easter year reformYear = .ok sunday) :
    sunday.InRange ∧ sunday.year = year ∧ Easter.InSeason (sunday.month, sunday.day) := by
  unfold easter at h
  split at h
  next => cases h
  next =>
    have season := Easter.monthDay_inSeason year reformYear
    obtain ⟨inRange, sameYear, sameMonth, sameDay⟩ := ofYearMonthDay_eq_ok.mp h
    rw [sameMonth, sameDay]
    exact ⟨inRange, sameYear, season⟩

end Date

end Almanac
