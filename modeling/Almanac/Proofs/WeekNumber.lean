import Almanac.Proofs.Date.Representable
import Almanac.Proofs.Week
import Mathlib.Logic.ExistsUnique
import Mathlib.Order.Bounds.Defs

set_option autoImplicit false

/-!
# Numbers of weeks

A week belongs as a whole to the year in which it starts and has its number from the first day of
that year on which a week starts.
-/

namespace Almanac.Date

variable {d x : Date} {settings : Settings} {year : Int}

theorem daysIntoWeek_eq_zero_iff :
    d.daysIntoWeek settings = 0 ↔ d.weekday = settings.weekStart := by
  have start := settings.weekStart.sundayIndex_lt
  rw [weekday_eq_iff, daysIntoWeek]
  omega

theorem startOfWeek_eq_iff (room : d.HasRoom 6) :
    d.startOfWeek settings = x ↔ (d.minus 6 ≤ x ∧ x ≤ d) ∧ x.weekday = settings.weekStart := by
  have into := d.daysIntoWeek_bounds settings
  have back : (d.minus 6).serial = d.serial - 6 := room.minus_serial (by decide)
  rw [eq_iff_serial, startOfWeek_serial room, le_def, le_def, back, ← daysIntoWeek_eq_zero_iff]
  unfold daysIntoWeek at *
  omega

-- No year at which adding stops is so short that its first week is cut off.
theorem firstWeekStart_serial_of_near (near : -1000000 ≤ year ∧ year ≤ 1000000) :
    (firstWeekStart year settings).serial = weekYearStart settings year := by
  have start := weekYearStart_bounds settings year
  have january : Civil.Valid ⟨year, 1, 1⟩ := valid_first year (by decide)
  have december : Civil.Valid ⟨year, 12, 31⟩ := valid_last year ⟨by decide, Nat.le_refl 12⟩
  have first := (representable_on january near).serial_bounds
  have last := (representable_on december near).serial_bounds
  have length := Civil.yearLength_bounds year
  rw [yearEnd_serial, newYear_succ] at last
  rw [firstWeekStart_eq]
  simp only [saturate, floor_serial, ceiling_serial]
  omega

theorem isLeast_firstWeekStart (near : -1000000 ≤ year ∧ year ≤ 1000000) :
    IsLeast {x : Date | x.year = year ∧ x.weekday = settings.weekStart}
      (firstWeekStart year settings) := by
  have serial := @firstWeekStart_serial_of_near settings year near
  have start := weekYearStart_bounds settings year
  have length := Civil.yearLength_bounds year
  have next := newYear_succ year
  constructor
  next =>
    refine ⟨year_eq_iff.mpr (by omega), ?_⟩
    rw [← daysIntoWeek_eq_zero_iff, daysIntoWeek_eq _ _ year, serial]
    omega
  next =>
    rintro x ⟨inYear, weekday⟩
    have bounds := year_eq_iff.mp inYear
    rw [← daysIntoWeek_eq_zero_iff, daysIntoWeek_eq _ _ year] at weekday
    rw [le_def, serial]
    omega

/-- A date lies among the weeks that start in a year. -/
def InWeekYear (d : Date) (settings : Settings) (year : Int) : Prop :=
  firstWeekStart year settings ≤ d ∧ d < firstWeekStart (year + 1) settings

instance (d : Date) (settings : Settings) (year : Int) : Decidable (d.InWeekYear settings year) :=
  inferInstanceAs (Decidable (_ ∧ _))

theorem firstWeekStart_mono (settings : Settings) {later : Int} (h : year ≤ later) :
    firstWeekStart year settings ≤ firstWeekStart later settings := by
  rw [firstWeekStart_eq, firstWeekStart_eq]
  exact saturate_mono (weekYearStart_mono settings h)

theorem InWeekYear.unique {other : Int} (within : d.InWeekYear settings year)
    (also : d.InWeekYear settings other) : other = year :=
  @year_unique (fun year => (firstWeekStart year settings).serial) (firstWeekStart_mono settings)
    _ _ _ within also

section

variable (inland : d.Inland)

include inland

theorem weekYear_starts (settings : Settings) :
    (firstWeekStart (d.weekYear settings) settings).serial =
        weekYearStart settings (d.weekYear settings) ∧
      (firstWeekStart (d.weekYear settings + 1) settings).serial =
        weekYearStart settings (d.weekYear settings + 1) := by
  obtain ⟨low, high⟩ := inland
  have year := d.weekYear_cases settings
  exact ⟨firstWeekStart_serial_of_near (by omega), firstWeekStart_serial_of_near (by omega)⟩

theorem inWeekYear_weekYear (settings : Settings) :
    d.InWeekYear settings (d.weekYear settings) := by
  have own := @weekYear_spec d settings (inland.hasRoom.mono (by decide))
  obtain ⟨start, next⟩ := weekYear_starts inland settings
  rw [InWeekYear, le_def, lt_def, start, next]
  exact own

theorem weekNumber_of_sameWeek (low : d.startOfWeek settings ≤ x)
    (high : x ≤ d.endOfWeek settings) :
    x.weekNumber settings = d.weekNumber settings := by
  have room := inland.hasRoom
  have own := @weekYear_spec d settings (room.mono (by decide))
  have number := @weekNumber_eq d settings (room.mono (by decide))
  have weeks := weekYearStart_succ settings (d.weekYear settings)
  have into := d.daysIntoWeek_eq settings (d.weekYear settings)
  rw [le_def, startOfWeek_serial (room.mono (by decide)), into] at low
  rw [le_def, endOfWeek_serial (room.mono (by decide)), into] at high
  have xRoom : x.HasRoom 800 := room.near (by omega)
  -- The weeks of a year are whole, so the days of one belong to the same year.
  have year : x.weekYear settings = d.weekYear settings := weekYear_eq xRoom (by omega)
  have xNumber := @weekNumber_eq x settings xRoom
  rw [year] at xNumber
  omega

theorem weekNumber_inWeekYear (within : d.InWeekYear settings year) :
    (d.weekNumber settings : Int) = (firstWeekStart year settings).daysTo d / 7 + 1 ∧
      (1 ≤ d.weekNumber settings ∧ d.weekNumber settings ≤ 53) ∧
      (d.weekNumber settings = 53 →
        (firstWeekStart year settings).daysTo (firstWeekStart (year + 1) settings) = 371) := by
  obtain rfl := (inWeekYear_weekYear inland settings).unique within
  have own := @weekYear_spec d settings (inland.hasRoom.mono (by decide))
  have number := @weekNumber_eq d settings (inland.hasRoom.mono (by decide))
  have weeks := weekYearStart_succ settings (d.weekYear settings)
  obtain ⟨start, next⟩ := weekYear_starts inland settings
  rw [daysTo, daysTo, start, next]
  omega

theorem weekNumber_plus_seven (within : d.InWeekYear settings year) :
    (d.plus 7 < firstWeekStart (year + 1) settings →
      (d.plus 7).weekNumber settings = d.weekNumber settings + 1) ∧
    (firstWeekStart (year + 1) settings ≤ d.plus 7 →
      (d.weekNumber settings = 52 ∨ d.weekNumber settings = 53) ∧
        (d.plus 7).weekNumber settings = 1) := by
  obtain rfl := (inWeekYear_weekYear inland settings).unique within
  have room := inland.hasRoom
  have own := @weekYear_spec d settings (room.mono (by decide))
  have number := @weekNumber_eq d settings (room.mono (by decide))
  have later := @weekNumber_later d settings (room.mono (by decide))
  have weeks := weekYearStart_succ settings (d.weekYear settings)
  obtain ⟨start, next⟩ := weekYear_starts inland settings
  rw [lt_def, le_def, next, room.plus_serial (by decide)]
  constructor
  next =>
    intro inYear
    rwa [if_pos inYear] at later
  next =>
    intro beyond
    rw [if_neg (by omega)] at later
    exact ⟨by omega, later⟩

end

/-- Weeks are numbered through from the first day of a year on which a week starts to that of the
next year, 52 or 53 of them, and all days of a week have its number. -/
theorem weekNumber_consistent {d : Date} (inland : d.Inland) (settings : Settings) :
    (∀ year, -1000000 ≤ year ∧ year ≤ 1000000 →
      IsLeast {x : Date | x.year = year ∧ x.weekday = settings.weekStart}
        (firstWeekStart year settings)) ∧
    (∃! year, d.InWeekYear settings year) ∧
    (∀ year, d.InWeekYear settings year →
      ((d.weekNumber settings : Int) = (firstWeekStart year settings).daysTo d / 7 + 1 ∧
        (1 ≤ d.weekNumber settings ∧ d.weekNumber settings ≤ 53) ∧
        (d.weekNumber settings = 53 →
          (firstWeekStart year settings).daysTo (firstWeekStart (year + 1) settings) = 371)) ∧
      (d.plus 7 < firstWeekStart (year + 1) settings →
        (d.plus 7).weekNumber settings = d.weekNumber settings + 1) ∧
      (firstWeekStart (year + 1) settings ≤ d.plus 7 →
        (d.weekNumber settings = 52 ∨ d.weekNumber settings = 53) ∧
          (d.plus 7).weekNumber settings = 1)) ∧
    (∀ x, d.startOfWeek settings ≤ x → x ≤ d.endOfWeek settings →
      x.weekNumber settings = d.weekNumber settings) ∧
    ∀ x, d.startOfWeek settings = x ↔
      (d.minus 6 ≤ x ∧ x ≤ d) ∧ x.weekday = settings.weekStart := by
  refine ⟨fun year => isLeast_firstWeekStart, ?_, ?_, ?_, ?_⟩
  next =>
    have own := inWeekYear_weekYear inland settings
    exact ⟨_, own, fun year within => own.unique within⟩
  next =>
    intro year within
    exact ⟨weekNumber_inWeekYear inland within, weekNumber_plus_seven inland within⟩
  next => exact fun x => weekNumber_of_sameWeek inland
  next => exact fun x => startOfWeek_eq_iff (inland.hasRoom.mono (by decide))

-- The week of 2024-12-30 is the 53rd of its year, with the first days of January in it.
theorem weekNumber_consistent_new_year :
    (Date.on 2025 1 2).Inland ∧ (Date.on 2025 1 2).InWeekYear {} 2024 ∧
      (Date.on 2025 1 2).weekNumber {} = 53 ∧
      (firstWeekStart 2024 {}).daysTo (firstWeekStart 2025 {}) = 371 ∧
      (Date.on 2024 12 31).weekNumber {} = 53 ∧
      ((Date.on 2025 1 2).plus 7).weekNumber {} = 1 := by
  have inland : (Date.on 2025 1 2).Inland := by decide
  have within : (Date.on 2025 1 2).InWeekYear {} 2024 := by decide
  have number : (Date.on 2025 1 2).weekNumber {} = 53 := by decide
  obtain ⟨-, -, numbered, same, -⟩ := weekNumber_consistent inland {}
  obtain ⟨⟨-, -, long⟩, later⟩ := numbered 2024 within
  have eve := same (Date.on 2024 12 31) (by decide) (by decide)
  exact ⟨inland, within, number, long number, eve.trans number, (later.2 (by decide)).2⟩

end Almanac.Date
