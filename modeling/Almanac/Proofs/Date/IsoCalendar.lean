import Almanac.Proofs.Date.IsoWeek

set_option autoImplicit false

/-!
# The calendar of ISO weeks

Year, week and day of the week number the days in their order, and each day that a year has in its
weeks is found by its number.
-/

namespace Almanac.Date

/-- A day of a week of an ISO year, counted from the Monday on or before January 4. -/
def isoDay (year : Int) (week day : Nat) : Date :=
  let fourth := on year 1 4
  let monday := fourth.serial - ((fourth.weekday.ordinal : Int) - 1)
  ⟨monday + 7 * ((week : Int) - 1) + ((day : Int) - 1)⟩

theorem isoDay_serial (year : Int) (week day : Nat) :
    (isoDay year week day).serial = isoYearBegin year + 7 * week + day - 8 := by
  simp only [isoDay, isoYearBegin_fourth]
  omega

def IsoBefore (a b : Date) : Prop :=
  a.isoYear < b.isoYear ∨
    (a.isoYear = b.isoYear ∧
      (a.isoWeek < b.isoWeek ∨
        (a.isoWeek = b.isoWeek ∧ a.weekday.ordinal < b.weekday.ordinal)))

theorem isoYearBegin_mono {year later : Int} (h : year ≤ later) :
    isoYearBegin year ≤ isoYearBegin later := by
  by_cases same : year = later
  next => exact Int.le_of_eq (by rw [same])
  next =>
    have years := Civil.daysBeforeYear_le h
    simp only [isoYearBegin, newYear_serial]
    omega

theorem ordinal_bounds (d : Date) : 1 ≤ d.weekday.ordinal ∧ d.weekday.ordinal ≤ 7 := by
  have ordinal := d.ordinal_weekday
  omega

section

variable {a b d : Date}

theorem serial_of_iso (room : d.HasRoom 6) :
    d.serial = isoYearBegin d.isoYear + 7 * d.isoWeek + d.weekday.ordinal - 8 := by
  have number := isoWeek_eq room
  have ordinal := d.ordinal_weekday
  have monday := isoYearBegin_monday d.isoYear
  omega

theorem isoDay_of_iso (room : d.HasRoom 6) :
    isoDay d.isoYear d.isoWeek d.weekday.ordinal = d :=
  ext ((isoDay_serial _ _ _).trans (serial_of_iso room).symm)

theorem lt_of_isoBefore (ha : a.HasRoom 6) (hb : b.HasRoom 6) (h : a.IsoBefore b) : a < b := by
  have first := serial_of_iso ha
  have second := serial_of_iso hb
  have firstDay := a.ordinal_bounds
  have secondDay := b.ordinal_bounds
  rw [lt_def]
  rcases h with earlier | ⟨same, inYear⟩
  next =>
    have upper := ((isoYear_eq_iff ha).mp rfl).2
    have lower := ((isoYear_eq_iff hb).mp rfl).1
    have years := isoYearBegin_mono (show a.isoYear + 1 ≤ b.isoYear by omega)
    omega
  next =>
    rw [same] at first
    omega

theorem isoBefore_trichotomy (ha : a.HasRoom 6) (hb : b.HasRoom 6) :
    a.IsoBefore b ∨ a = b ∨ b.IsoBefore a := by
  have equal : a.isoYear = b.isoYear → a.isoWeek = b.isoWeek →
      a.weekday.ordinal = b.weekday.ordinal → a.serial = b.serial := by
    intro year week day
    rw [serial_of_iso ha, serial_of_iso hb, year, week, day]
  rw [IsoBefore, IsoBefore, eq_iff_serial]
  omega

theorem lt_iff_isoBefore (ha : a.HasRoom 6) (hb : b.HasRoom 6) : a < b ↔ a.IsoBefore b := by
  constructor
  next =>
    intro h
    rcases isoBefore_trichotomy ha hb with before | rfl | after
    next => exact before
    next => exact absurd h (Int.lt_irrefl _)
    next => exact absurd (lt_of_isoBefore hb ha after) (Int.lt_asymm h)
  next => exact lt_of_isoBefore ha hb

end

theorem ofIsoWeek_eq_ok_iff_isoDay {year : Int} {week day : Nat} {d : Date} :
    ofIsoWeek year week day = .ok d ↔
      (1 ≤ day ∧ day ≤ 7) ∧ (1 ≤ week ∧ week ≤ isoWeeks year) ∧ d.InRange ∧
        d = isoDay year week day := by
  have next := isoYearBegin_succ year
  have serial := isoDay_serial year week day
  rw [ofIsoWeek_eq_ok]
  constructor
  next =>
    rintro ⟨inRange, rfl, rfl, rfl⟩
    have room : d.HasRoom 6 := inRange.hasRoom (by decide)
    have inYear := (isoWeek_eq_iff room).mp ⟨rfl, rfl⟩
    exact ⟨d.ordinal_bounds, inYear.1, inRange, (isoDay_of_iso room).symm⟩
  next =>
    rintro ⟨inWeek, inYear, inRange, rfl⟩
    have room : (isoDay year week day).HasRoom 6 := inRange.hasRoom (by decide)
    obtain ⟨sameYear, sameWeek⟩ := (isoWeek_eq_iff room).mpr ⟨inYear, by omega, by omega⟩
    have whole := serial_of_iso room
    rw [sameYear, sameWeek] at whole
    exact ⟨inRange, sameYear, sameWeek, by omega⟩

/-- Year, week and day of the week name each date in range, and the date they name has them. They
name a date exactly when the year has the week and the day they stand for is in range; and dates are
in the order of the three. -/
theorem iso_coordinates_bijective :
    (∀ d : Date, d.InRange → ofIsoWeek d.isoYear d.isoWeek d.weekday.ordinal = .ok d) ∧
    (∀ (year : Int) (week day : Nat) (d : Date), ofIsoWeek year week day = .ok d →
      d.isoYear = year ∧ d.isoWeek = week ∧ d.weekday.ordinal = day) ∧
    (∀ (year : Int) (week day : Nat),
      (∃ d, ofIsoWeek year week day = .ok d) ↔
        (1 ≤ day ∧ day ≤ 7) ∧
        (1 ≤ week ∧
          week ≤ if (on year 1 1).weekday = .thursday ∨ (on year 12 31).weekday = .thursday then 53
            else 52) ∧
        (isoDay year week day).InRange) ∧
    ∀ a b : Date, a.InRange → b.InRange → (a < b ↔ a.IsoBefore b) := by
  refine ⟨?_, ?_, ?_, ?_⟩
  next => exact fun d inRange => ofIsoWeek_eq_ok.mpr ⟨inRange, rfl, rfl, rfl⟩
  next => exact fun year week day d found => (ofIsoWeek_eq_ok.mp found).2
  next =>
    intro year week day
    simp only [ofIsoWeek_eq_ok_iff_isoDay]
    constructor
    next =>
      rintro ⟨_, inWeek, inYear, inRange, rfl⟩
      exact ⟨inWeek, inYear, inRange⟩
    next =>
      rintro ⟨inWeek, inYear, inRange⟩
      exact ⟨_, inWeek, inYear, inRange, rfl⟩
  next =>
    intro a b ha hb
    exact lt_iff_isoBefore (ha.inland.hasRoom.mono (by decide)) (hb.inland.hasRoom.mono (by decide))

-- The first day of 2021 is the Friday of week 53 of the ISO year 2020.
theorem iso_coordinates_bijective_new_year :
    (on 2021 1 1).InRange ∧ (on 2021 1 3).InRange ∧ (on 2021 1 4).InRange ∧
      (on 2021 1 1).isoYear = 2020 ∧ (on 2021 1 1).isoWeek = 53 ∧
      ofIsoWeek 2020 53 5 = .ok (on 2021 1 1) ∧
      (¬∃ d, ofIsoWeek 2021 53 1 = .ok d) ∧
      (on 2021 1 3 < on 2021 1 4 ∧ (on 2021 1 3).IsoBefore (on 2021 1 4)) := by
  have found : ofIsoWeek 2020 53 5 = .ok (on 2021 1 1) :=
    iso_coordinates_bijective.1 (on 2021 1 1) (by decide)
  have parts := iso_coordinates_bijective.2.1 _ _ _ _ found
  have missing : ¬∃ d, ofIsoWeek 2021 53 1 = .ok d := by
    rw [iso_coordinates_bijective.2.2.1]
    decide
  have order : on 2021 1 3 < on 2021 1 4 := by decide
  have before := (iso_coordinates_bijective.2.2.2 _ _ (by decide) (by decide)).mp order
  exact ⟨by decide, by decide, by decide, parts.1, parts.2.1, found, missing, order, before⟩

end Almanac.Date
