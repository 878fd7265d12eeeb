import Almanac.Proofs.JulianEaster

set_option autoImplicit false

/-!
# Easter in machine words

Easter is reckoned in words before its year is checked. The Gregorian reckoning fits in all years,
and the Julian one in the years up to 5874689. In the years after them through the reform year there
is no answer, where it would be that the year is out of range.
-/

namespace Almanac

namespace Word

variable {year reformYear : Int}

theorem monthDay?_eq (late : 30 ≤ year) (word : year < 2147483648)
    (fits : ¬(5874690 ≤ year ∧ year ≤ reformYear)) :
    monthDay? year reformYear = some (Easter.monthDay year reformYear) := by
  unfold monthDay? Easter.monthDay
  split
  next julian => exact julianEaster?_eq (by omega)
  next gregorian => exact gregorianEaster?_eq (by omega)

theorem easter?_eq (word : year < 2147483648) (fits : ¬(5874690 ≤ year ∧ year ≤ reformYear)) :
    easter? year reformYear = some (Date.easter year reformYear) := by
  unfold easter? Date.easter
  split
  next => rfl
  next late =>
    rw [monthDay?_eq (by omega) word fits]
    rfl

theorem easter?_eq_none (far : 5874690 ≤ year) (julian : year ≤ reformYear) :
    easter? year reformYear = none := by
  rw [easter?, if_neg (by omega), monthDay?, if_pos julian, julianEaster?_eq_none far]
  rfl

theorem easter?_eq_none_iff (word : year < 2147483648) :
    easter? year reformYear = none ↔ 5874690 ≤ year ∧ year ≤ reformYear := by
  by_cases fits : 5874690 ≤ year ∧ year ≤ reformYear
  next => exact iff_of_true (easter?_eq_none fits.1 fits.2) fits
  next =>
    rw [easter?_eq word fits]
    exact iff_of_false (Option.some_ne_none _) fits

end Word

namespace Date

/-- From the year 30 on the Gregorian Easter is that of the church, a Sunday from March 22 to
April 25, and words of 32 bits suffice to reckon it. Easter is this date after the reform year, it
is undefined before the year 30, and after the year 9999 it is out of range, except that the years
from 5874690 through the reform year have no answer. -/
theorem easter_by_epact (year : Int) :
    (30 ≤ year →
      Easter.gregorian year = Easter.byEpact year ∧
      Easter.InSeason (Easter.gregorian year) ∧
      (on year (Easter.gregorian year).1 (Easter.gregorian year).2).weekday = .sunday ∧
      (year < 2147483648 → Word.gregorianEaster? year = some (Easter.byEpact year))) ∧
    (year < 2147483648 → ∀ reformYear : Int,
      (30 ≤ year → year ≤ 9999 → reformYear < year →
        Word.easter? year reformYear =
          some (.ok (on year (Easter.byEpact year).1 (Easter.byEpact year).2))) ∧
      (year < 30 → Word.easter? year reformYear = some (.error (.undefinedEaster year))) ∧
      (9999 < year →
        (Word.easter? year reformYear = some (.error (.invalidDate (.year year))) ↔
          ¬(5874690 ≤ year ∧ year ≤ reformYear)) ∧
        (Word.easter? year reformYear = none ↔ 5874690 ≤ year ∧ year ≤ reformYear))) := by
  refine ⟨fun late => ?_, fun word reformYear => ⟨?_, ?_, ?_⟩⟩
  next =>
    have same := Easter.gregorian_eq_byEpact year
    refine ⟨same, Easter.gregorian_inSeason year, ?_, fun word => ?_⟩
    next => rw [same]; exact weekday_byEpact year
    next => rw [← same]; exact Word.gregorianEaster?_eq ⟨by omega, word⟩
  next =>
    intro late known reformed
    rw [Word.easter?_eq word (by omega), easter_of_reformed ⟨late, known⟩ reformed,
      Easter.gregorian_eq_byEpact]
  next =>
    intro early
    rw [Word.easter?_eq word (by omega), easter_of_early early]
  next =>
    intro beyond
    refine ⟨⟨fun answer fails => ?_, fun fits => ?_⟩, Word.easter?_eq_none_iff word⟩
    next =>
      rw [Word.easter?_eq_none fails.1 fails.2] at answer
      cases answer
    next => rw [Word.easter?_eq word fits, easter_of_beyond beyond]

-- In 1954 the epact is 25 and the golden number 17, so the full moon is brought forward from
-- Sunday, April 18.
theorem easter_by_epact_early_moon :
    Easter.plainEpact 1954 = 25 ∧ Easter.gregorian 1954 = (4, 18) ∧
      (on 1954 4 18).weekday = .sunday ∧ Word.gregorianEaster? 1954 = some (4, 18) ∧
      Word.easter? 1954 1582 = some (.ok (on 1954 4 18)) ∧
      Word.easter? 29 1582 = some (.error (.undefinedEaster 29)) ∧
      Word.easter? 5874689 5874689 = some (.error (.invalidDate (.year 5874689))) ∧
      Word.easter? 5874690 5874690 = none := by
  have date : Easter.byEpact 1954 = (4, 18) := by decide
  obtain ⟨modern, outcomes⟩ := easter_by_epact 1954
  obtain ⟨same, -, sunday, words⟩ := modern (by decide)
  obtain ⟨day, -, -⟩ := outcomes (by decide) 1582
  obtain ⟨-, undefined, -⟩ := (easter_by_epact 29).2 (by decide) 1582
  obtain ⟨-, -, lastYear⟩ := (easter_by_epact 5874689).2 (by decide) 5874689
  obtain ⟨-, -, nextYear⟩ := (easter_by_epact 5874690).2 (by decide) 5874690
  have gregorian := words (by decide)
  have known := day (by decide) (by decide) (by decide)
  rw [same, date] at sunday
  rw [date] at same gregorian known
  exact ⟨by decide, same, sunday, gregorian, known, undefined (by decide),
    (lastYear (by decide)).1.mpr (by decide), (nextYear (by decide)).2.mpr (by decide)⟩

theorem easter_without_answer :
    (9999 : Int) < 5900000 ∧ easter 5900000 6000000 = .error (.invalidDate (.year 5900000)) ∧
      Word.easter? 5900000 6000000 = none ∧
      Word.easter? 5900000 6000000 ≠ some (.error (.invalidDate (.year 5900000))) := by
  have failed : Word.easter? 5900000 6000000 = none := rfl
  refine ⟨by decide, easter_of_beyond (by decide), failed, ?_⟩
  rw [failed]
  exact fun answer => nomatch answer

end Date

end Almanac
