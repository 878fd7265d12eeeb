import Almanac.Proofs.Civil.Julian
import Almanac.Proofs.Epact

set_option autoImplicit false

/-!
# The Julian Easter by remainders

The table of full moons and the day of the week of each are replaced by the remainders of the year
by 19, by 4 and by 7. Easter is the first Sunday after the full moon, and days are counted from the
start of March.
-/

namespace Almanac

namespace Easter

def julianMoonDistance (year : Int) : Int :=
  (19 * (year % 19) + 15) % 30

def julianSundayDistance (year : Int) : Int :=
  (2 * (year % 4) + 4 * (year % 7) - julianMoonDistance year + 34) % 7

def byRemainders (year : Int) : Nat × Nat :=
  let day := julianMoonDistance year + julianSundayDistance year + 114
  ((day / 31).toNat, (day % 31 + 1).toNat)

/-- The first Sunday that comes after a day, a week later when the day is a Sunday. -/
structure FirstSundayAfter (moon sunday : Date) : Prop where
  after : moon < sunday
  isSunday : sunday.weekday = .sunday
  first : ∀ d : Date, moon < d → d.weekday = .sunday → sunday ≤ d

theorem firstSundayAfter_iff {moon sunday : Date} :
    FirstSundayAfter moon sunday ↔
      sunday.serial = moon.serial + (7 - moon.weekday.sundayIndex) := by
  have index := moon.sundayIndex_weekday
  constructor
  next =>
    rintro ⟨after, isSunday, first⟩
    have next := first ⟨moon.serial + (7 - moon.weekday.sundayIndex)⟩
    simp only [Date.weekday_eq_iff, Weekday.sundayIndex, Date.lt_def, Date.le_def] at *
    omega
  next =>
    intro serial
    refine ⟨?_, ?_, fun d after isSunday => ?_⟩
    all_goals
      simp only [Date.weekday_eq_iff, Weekday.sundayIndex, Date.lt_def, Date.le_def] at *
      omega

variable (year : Int)

theorem julianMoonDistance_bounds :
    0 ≤ julianMoonDistance year ∧ julianMoonDistance year < 30 := by
  unfold julianMoonDistance
  omega

theorem julianSundayDistance_bounds :
    0 ≤ julianSundayDistance year ∧ julianSundayDistance year < 7 := by
  unfold julianSundayDistance
  omega

theorem byRemainders_eq_ofMarchDay :
    byRemainders year = ofMarchDay (22 + julianMoonDistance year + julianSundayDistance year) := by
  have moon := julianMoonDistance_bounds year
  have sunday := julianSundayDistance_bounds year
  simp only [byRemainders, ofMarchDay]
  split <;> rw [Prod.mk.injEq] <;> omega

theorem fullMoons_eq : ∀ golden : Fin 19,
    fullMoons.getD golden (4, 5) = ofMarchDay (21 + (19 * golden + 15) % 30) := by
  decide

theorem fullMoon_eq : fullMoon year = ofMarchDay (21 + julianMoonDistance year) := by
  have entry := fullMoons_eq ⟨(year % 19).toNat, by omega⟩
  have golden : ((year % 19).toNat : Int) = year % 19 := Int.toNat_of_nonneg (by omega)
  simp only [golden] at entry
  exact entry

end Easter

namespace Julian

open Easter (julianMoonDistance julianSundayDistance ofMarchDay)

variable (year : Int)

theorem march_serial :
    (date year 3 1).serial = 1461 * (year / 4) + 365 * (year % 4) - 719470 := by
  have march := Date.march_serial (likeYear year)
  simp only [Date.on, Date.ofCivil] at march
  simp only [date, dayNumber, march]
  unfold likeYear Civil.daysBeforeYear
  omega

theorem ofMarchDay_serial {n : Int} (h : 1 ≤ n) :
    (date year (ofMarchDay n).1 (ofMarchDay n).2).serial = (date year 3 1).serial + n - 1 := by
  have day := @Date.ofMarchDay_serial (likeYear year) n h
  have march := Date.march_serial (likeYear year)
  simp only [Date.on, Date.ofCivil] at day march
  simp only [date, dayNumber, day, march]
  omega

def fullMoon : Date :=
  date year (Easter.fullMoon year).1 (Easter.fullMoon year).2

def easter : Date :=
  date year (Easter.julian year).1 (Easter.julian year).2

theorem fullMoon_serial :
    (fullMoon year).serial = (date year 3 1).serial + 20 + julianMoonDistance year := by
  have moon := Easter.julianMoonDistance_bounds year
  rw [fullMoon, Easter.fullMoon_eq, ofMarchDay_serial year (by omega)]
  omega

theorem fullMoon_weekday :
    ((fullMoon year).weekday.sundayIndex : Int) = 6 - julianSundayDistance year := by
  have index := (fullMoon year).sundayIndex_weekday
  rw [fullMoon_serial, march_serial] at index
  unfold julianSundayDistance
  omega

theorem easter_eq_ofMarchDay : Easter.julian year =
    ofMarchDay (22 + julianMoonDistance year + julianSundayDistance year) := by
  have moon := Easter.julianMoonDistance_bounds year
  have sunday := Easter.julianSundayDistance_bounds year
  have months : 1 ≤ (Easter.fullMoon year).1 ∧ (Easter.fullMoon year).1 ≤ 12 := by
    have := Easter.fullMoons_bounds _ (Easter.fullMoon_mem year)
    omega
  have index := fullMoon_weekday year
  rw [fullMoon] at index
  simp only [Easter.julian, julianWeekday_eq months]
  rw [Easter.fullMoon_eq] at index ⊢
  generalize (date year _ _).weekday = weekday at index ⊢
  simp only [ofMarchDay]
  split <;> split <;> split <;> rw [Prod.mk.injEq] <;> omega

theorem easter_eq_byRemainders : Easter.julian year = Easter.byRemainders year := by
  rw [easter_eq_ofMarchDay, Easter.byRemainders_eq_ofMarchDay]

theorem easter_firstSunday : Easter.FirstSundayAfter (fullMoon year) (easter year) := by
  have moon := Easter.julianMoonDistance_bounds year
  have sunday := Easter.julianSundayDistance_bounds year
  have index := fullMoon_weekday year
  rw [Easter.firstSundayAfter_iff, easter, easter_eq_ofMarchDay, ofMarchDay_serial year (by omega),
    fullMoon_serial]
  omega

end Julian

namespace Word

variable {year : Int} {month day : Nat}

section

variable (spring : month = 3 ∨ month = 4)

include spring

theorem julianDay?_eq (known : 0 ≤ year ∧ year < 5874690) (short : day ≤ 31) :
    julianDay? year month day = some (Easter.julianDay year month day) := by
  have early : (14 - (month : Int)) / 12 = 0 := by omega
  rw [julianDay?]
  simp (disch := omega) only [some_bind_eq, sub?_eq, add?_eq, mul?_eq, div?_eq]
  rfl

theorem julianWeekday?_eq (known : 0 ≤ year ∧ year < 5874690) (short : day ≤ 31) :
    julianWeekday? year month day = some (Easter.julianWeekday year month day) := by
  have late : 0 ≤ Easter.julianDay year month day ∧
      Easter.julianDay year month day < 2147483647 := by
    simp only [Easter.julianDay]
    omega
  rw [julianWeekday?, julianDay?_eq spring known short]
  simp (disch := omega) only [some_bind_eq, add?_eq, rem?_eq, byte?_eq, ofSundayIndex?_eq,
    afterSunday_emod]
  rfl

-- The days of the whole years alone do not fit a word, whichever the full moon is.
theorem julianDay?_eq_none (beyond : 5874690 ≤ year) : julianDay? year month day = none := by
  rw [Option.eq_none_iff_forall_ne_some]
  intro number known
  have early : (14 - (month : Int)).tdiv 12 = 0 := by
    rcases spring with rfl | rfl <;> rfl
  have months : 0 ≤ (153 * ((month : Int) - 3) + 2).tdiv 5 := Int.tdiv_nonneg (by omega) (by decide)
  have leapYears : (year + 4800).tdiv 4 = (year + 4800) / 4 :=
    Int.tdiv_eq_ediv_of_nonneg (by omega)
  simp only [julianDay?, Option.bind_eq_bind, Option.bind_eq_some_iff, add?, sub?, mul?, div?,
    fit?_eq_some_iff, Date.IsWord, and_assoc, exists_and_left, exists_eq_left', early,
    Int.mul_zero, Int.add_zero, Int.sub_zero, leapYears] at known
  omega

end

theorem julianEaster?_eq (known : 0 ≤ year ∧ year < 5874690) :
    julianEaster? year = some (Easter.julian year) := by
  have bounds := Easter.fullMoons_bounds _ (Easter.fullMoon_mem year)
  rw [julianEaster?, Easter.getElem?_fullMoons, some_bind_eq,
    julianWeekday?_eq (by omega) known (by omega), some_bind_eq, Easter.julian]
  generalize Easter.julianWeekday year _ _ = weekday
  have index := weekday.sundayIndex_lt
  simp (disch := omega) only [some_bind_eq, subByte?_eq, addByte?_eq]
  split <;> rfl

theorem julianEaster?_eq_none (beyond : 5874690 ≤ year) : julianEaster? year = none := by
  have bounds := Easter.fullMoons_bounds _ (Easter.fullMoon_mem year)
  have noDay : julianDay? year (Easter.fullMoon year).1 (Easter.fullMoon year).2 = none :=
    julianDay?_eq_none (by omega) beyond
  rw [julianEaster?, Easter.getElem?_fullMoons, some_bind_eq, julianWeekday?, noDay]
  rfl

end Word

namespace Date

theorem easter_eq_ok_iff {year reformYear : Int} {monthDay : Nat × Nat}
    (season : Easter.InSeason monthDay) :
    easter year reformYear = .ok (on year monthDay.1 monthDay.2) ↔
      30 ≤ year ∧ year ≤ 9999 ∧ Easter.monthDay year reformYear = monthDay := by
  have found := Easter.monthDay_inSeason year reformYear
  have valid := season.valid year
  unfold easter
  split
  next early =>
    constructor
    next => intro h; cases h
    next => rintro ⟨late, -⟩; omega
  next late =>
    rw [ofYearMonthDay_eq_ok, inRange_iff, year_on valid, month_on valid, day_on valid,
      Prod.ext_iff]
    constructor
    next =>
      rintro ⟨known, -, sameMonth, sameDay⟩
      exact ⟨by omega, known.2, sameMonth.symm, sameDay.symm⟩
    next =>
      rintro ⟨-, known, sameMonth, sameDay⟩
      exact ⟨by omega, rfl, sameMonth.symm, sameDay.symm⟩

/-- From the year 30 on the Julian Easter is found by the remainders of the year. It is the first
Sunday after the full moon of the table, a day of the Julian calendar from March 22 to April 25, and
words of 32 bits suffice to reckon it. Easter has its month and day through the reform year, and
later on only when the Gregorian Easter has the same. -/
theorem easter_by_remainders (year : Int) :
    (30 ≤ year →
      Easter.julian year = Easter.byRemainders year ∧
      Easter.FirstSundayAfter (Julian.fullMoon year) (Julian.easter year) ∧
      ((Julian.fullMoon year).weekday = .sunday →
        (Julian.easter year).serial = (Julian.fullMoon year).serial + 7) ∧
      Easter.InSeason (Easter.julian year) ∧
      Julian.Valid ⟨year, (Easter.julian year).1, (Easter.julian year).2⟩ ∧
      (year ≤ 5000000 → Word.julianEaster? year = some (Easter.byRemainders year))) ∧
    ∀ reformYear : Int,
      easter year reformYear =
          .ok (on year (Easter.byRemainders year).1 (Easter.byRemainders year).2) ↔
        30 ≤ year ∧ year ≤ 9999 ∧
          (year ≤ reformYear ∨ Easter.gregorian year = Easter.byRemainders year) := by
  have same := Julian.easter_eq_byRemainders year
  have season := Easter.julian_inSeason year
  have sunday := Julian.easter_firstSunday year
  constructor
  next =>
    intro late
    refine ⟨same, sunday, fun onSunday => ?_, season, season.valid _, fun near => ?_⟩
    next => rw [Easter.firstSundayAfter_iff.mp sunday, onSunday, Weekday.sundayIndex]; omega
    next => rw [← same]; exact Word.julianEaster?_eq ⟨by omega, by omega⟩
  next =>
    intro reformYear
    rw [← same, easter_eq_ok_iff season]
    apply and_congr_right
    intro late
    apply and_congr_right
    intro known
    unfold Easter.monthDay
    split
    next before => simp [before]
    next after => simp [after]

-- In 1546 the full moon of the table is the latest one, April 18, and a Sunday.
theorem easter_by_remainders_latest :
    Easter.julian 1546 = (4, 25) ∧
      (Julian.easter 1546).serial = (Julian.fullMoon 1546).serial + 7 ∧
      (Julian.easter 1546).weekday = .sunday ∧
      Word.julianEaster? 1546 = some (4, 25) ∧
      easter 1546 1582 = .ok (on 1546 4 25) ∧
      easter 1546 1545 ≠ .ok (on 1546 4 25) := by
  have date : Easter.byRemainders 1546 = (4, 25) := by decide
  obtain ⟨early, reformed⟩ := easter_by_remainders 1546
  obtain ⟨same, sunday, week, -, -, words⟩ := early (by decide)
  rw [date] at same words reformed
  refine ⟨same, week (by decide), sunday.isSunday, words (by decide), ?_, ?_⟩
  next => exact (reformed 1582).mpr (by decide)
  next => exact fun h => absurd ((reformed 1545).mp h) (by decide)

theorem easter_by_remainders_after_reform :
    ¬(easter 5806 1582 =
        .ok (on 5806 (Easter.byRemainders 5806).1 (Easter.byRemainders 5806).2) ↔
      (30 : Int) ≤ 5806 ∧ (5806 : Int) ≤ 1582 ∧ (5806 : Int) ≤ 9999) := by
  have season : Easter.InSeason (Easter.byRemainders 5806) :=
    Julian.easter_eq_byRemainders 5806 ▸ Easter.julian_inSeason 5806
  rw [easter_eq_ok_iff season]
  decide

end Date

end Almanac
