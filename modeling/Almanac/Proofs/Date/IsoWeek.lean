import Almanac.Date.IsoWeek
import Almanac.Proofs.Date.Checked
import Almanac.Proofs.Week

set_option autoImplicit false

/-!
# The coordinates of ISO weeks

The weeks of an ISO year begin on a Monday within three days of the new year and end before those
of the next, and year, number and day of a week name one date.
-/

namespace Almanac.Date

theorem ordinal_weekday (d : Date) : (d.weekday.ordinal : Int) = (d.serial + 3) % 7 + 1 := by
  have index := d.sundayIndex_weekday
  have ordinal : d.weekday.ordinal =
      if d.weekday.sundayIndex = 0 then 7 else d.weekday.sundayIndex := by
    cases d.weekday <;> rfl
  split at ordinal <;> omega

theorem weekday_thursday_iff {d : Date} : d.weekday = .thursday ↔ d.serial % 7 = 0 := by
  rw [weekday_eq_iff, Weekday.sundayIndex]
  omega

def isoYearBegin (year : Int) : Int :=
  (on year 1 1).serial + 3 - ((on year 1 1).serial + 6) % 7

theorem isoYearBegin_monday (year : Int) : (isoYearBegin year + 3) % 7 = 0 := by
  unfold isoYearBegin
  omega

theorem isoYearBegin_succ (year : Int) :
    isoYearBegin (year + 1) = isoYearBegin year + 7 * isoWeeks year := by
  have next := newYear_succ year
  have length := Civil.yearLength_bounds year
  unfold isoWeeks
  simp only [weekday_thursday_iff, yearEnd_serial]
  split <;> unfold isoYearBegin <;> omega

theorem isoWeeks_bounds (year : Int) : 52 ≤ isoWeeks year ∧ isoWeeks year ≤ 53 := by
  unfold isoWeeks
  split <;> decide

theorem isoYearBegin_fourth (year : Int) :
    (on year 1 4).serial - ((on year 1 4).weekday.ordinal - 1) = isoYearBegin year := by
  have ordinal := (on year 1 4).ordinal_weekday
  have fourth := on_serial year 1 4
  unfold isoYearBegin
  omega

-- The start of an ISO year too far off is cut to the last day.
theorem isoYearStart_serial (year : Int) :
    (isoYearStart year).serial = max floor.serial (min (isoYearBegin year) ceiling.serial) := by
  simp only [isoYearStart, minus, isoYearBegin_fourth, saturate]

section

variable {d : Date} (room : d.HasRoom 6)

include room

theorem thursday_serial : d.thursday.serial = d.serial + 3 - (d.serial + 3) % 7 := by
  have ordinal := d.ordinal_weekday
  rw [thursday, room.plus_serial (by omega)]
  omega

theorem isoYear_eq_iff {year : Int} :
    d.isoYear = year ↔ isoYearBegin year ≤ d.serial ∧ d.serial < isoYearBegin (year + 1) := by
  rw [isoYear, year_eq_iff, thursday_serial room]
  unfold isoYearBegin
  omega

theorem isoWeek_eq : (d.isoWeek : Int) = (d.serial - isoYearBegin d.isoYear) / 7 + 1 := by
  have day := d.thursday.dayOfYear_eq
  have bounds := d.thursday.dayOfYear_bounds
  rw [thursday_serial room] at day
  unfold isoWeek isoYear isoYearBegin
  omega

theorem isoWeek_eq_iff {year : Int} {week : Nat} :
    d.isoYear = year ∧ d.isoWeek = week ↔ (1 ≤ week ∧ week ≤ isoWeeks year) ∧
      isoYearBegin year + 7 * week - 7 ≤ d.serial ∧ d.serial < isoYearBegin year + 7 * week := by
  have next := isoYearBegin_succ year
  have number := isoWeek_eq room
  have own := @isoYear_eq_iff d room year
  constructor
  next =>
    rintro ⟨rfl, rfl⟩
    omega
  next =>
    intro inWeek
    have sameYear := own.mpr (by omega)
    rw [sameYear] at number
    exact ⟨sameYear, by omega⟩

end

theorem ofIsoWeek_eq_ok {year : Int} {week day : Nat} {d : Date} :
    ofIsoWeek year week day = .ok d ↔
      d.InRange ∧ d.isoYear = year ∧ d.isoWeek = week ∧ d.weekday.ordinal = day := by
  have weeks := isoWeeks_bounds year
  have monday := isoYearBegin_monday year
  have next := isoYearBegin_succ year
  have start := isoYearStart_serial year
  simp only [floor_serial, ceiling_serial] at start
  have ordinal := d.ordinal_weekday
  unfold ofIsoWeek
  rw [checkRange_bind_eq_ok, checkRange_bind_eq_ok]
  constructor
  next =>
    rintro ⟨inYear, inWeek, found⟩
    split at found
    next => cases found
    next weekExists =>
      obtain ⟨inRange, serial⟩ := ofSerial_eq_ok.mp found
      have bounds := inRange.serial_bounds
      have room : d.HasRoom 6 := inRange.hasRoom (by decide)
      have sameYear : d.isoYear = year := (isoYear_eq_iff room).mpr (by omega)
      have number := isoWeek_eq room
      rw [sameYear] at number
      exact ⟨inRange, sameYear, by omega, by omega⟩
  next =>
    rintro ⟨inRange, rfl, rfl, rfl⟩
    have bounds := inRange.serial_bounds
    have room : d.HasRoom 6 := inRange.hasRoom (by decide)
    have own := (isoYear_eq_iff room).mp rfl
    have number := isoWeek_eq room
    refine ⟨by omega, by omega, ?_⟩
    rw [if_neg (by omega), ofSerial_eq_ok]
    exact ⟨inRange, by omega⟩

end Almanac.Date
