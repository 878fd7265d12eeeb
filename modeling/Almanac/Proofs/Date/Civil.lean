import Almanac.Date.Shift
import Almanac.Proofs.Civil.Order

set_option autoImplicit false

/-!
# Dates on the calendar

Dates are in the order of their year, month and day, and a range of years is a range of dates.
-/

namespace Almanac.Date

theorem eq_iff_serial {a b : Date} : a = b ↔ a.serial = b.serial :=
  ⟨congrArg serial, ext⟩

theorem max_serial {a b : Date} : (max a b).serial = max a.serial b.serial := by
  by_cases h : a ≤ b
  next =>
    rw [show max a b = b from if_pos h]
    exact (Int.max_eq_right h).symm
  next =>
    rw [show max a b = a from if_neg h]
    rw [le_def] at h
    omega

theorem min_serial {a b : Date} : (min a b).serial = min a.serial b.serial := by
  by_cases h : a ≤ b
  next =>
    rw [show min a b = a from if_pos h]
    exact (Int.min_eq_left h).symm
  next =>
    rw [show min a b = b from if_neg h]
    rw [le_def] at h
    omega

theorem saturate_mono {m n : Int} (h : m ≤ n) : saturate m ≤ saturate n := by
  simp only [le_def, saturate]
  omega

theorem plus_mono {a b : Date} (h : a ≤ b) (n : Int) : a.plus n ≤ b.plus n :=
  saturate_mono (Int.add_le_add_right h n)

section on

variable {year : Int} {month day : Nat} (valid : Civil.Valid ⟨year, month, day⟩)

include valid

theorem civil_on : (on year month day).civil = ⟨year, month, day⟩ :=
  Civil.ofDayNumber_dayNumber valid

theorem year_on : (on year month day).year = year :=
  congrArg Civil.year (civil_on valid)

theorem month_on : (on year month day).month = month :=
  congrArg Civil.month (civil_on valid)

theorem day_on : (on year month day).day = day :=
  congrArg Civil.day (civil_on valid)

end on

theorem valid_last (year : Int) {month : Nat} (h : 1 ≤ month ∧ month ≤ 12) :
    Civil.Valid ⟨year, month, Civil.monthLength year month⟩ := by
  have length := Civil.monthLength_bounds year month
  exact ⟨h.1, h.2, by simp only; omega, Nat.le_refl _⟩

theorem on_parts (d : Date) : on d.year d.month d.day = d :=
  ofCivil_civil d

theorem valid_middle (year : Int) {month day : Nat} (h : 1 ≤ month ∧ month ≤ 12)
    (early : 1 ≤ day ∧ day ≤ 28) : Civil.Valid ⟨year, month, day⟩ := by
  have length := Civil.monthLength_bounds year month
  exact ⟨h.1, h.2, early.1, by simp only; omega⟩

theorem valid_first (year : Int) {month : Nat} (h : 1 ≤ month ∧ month ≤ 12) :
    Civil.Valid ⟨year, month, 1⟩ :=
  valid_middle year h (by decide)

theorem month_bounds (d : Date) : 1 ≤ d.month ∧ d.month ≤ 12 :=
  ⟨d.valid_civil.1, d.valid_civil.2.1⟩

theorem day_bounds (d : Date) : 1 ≤ d.day ∧ d.day ≤ d.monthLength :=
  d.valid_civil.2.2

theorem day_le (d : Date) : d.day ≤ 31 :=
  Nat.le_trans d.day_bounds.2 (Civil.monthLength_bounds d.year d.month).2

theorem lt_iff_before {a b : Date} : a < b ↔ a.civil.Before b.civil := by
  rw [← Civil.dayNumber_lt_iff a.valid_civil b.valid_civil]
  simp [lt_def, civil]

theorem le_iff_not_before {a b : Date} : a ≤ b ↔ ¬b.civil.Before a.civil := by
  rw [← lt_iff_before, le_def, lt_def]
  omega

theorem le_iff_parts {a b : Date} :
    a ≤ b ↔ a.year < b.year ∨
      (a.year = b.year ∧ (a.month < b.month ∨ (a.month = b.month ∧ a.day ≤ b.day))) := by
  rw [le_iff_not_before]
  simp only [Civil.Before, year, month, day]
  omega

theorem on_le_iff {d : Date} {y : Int} {m k : Nat} (valid : Civil.Valid ⟨y, m, k⟩) :
    on y m k ≤ d ↔ y < d.year ∨ (y = d.year ∧ (m < d.month ∨ (m = d.month ∧ k ≤ d.day))) := by
  rw [le_iff_parts, year_on valid, month_on valid, day_on valid]

theorem le_on_iff {d : Date} {y : Int} {m k : Nat} (valid : Civil.Valid ⟨y, m, k⟩) :
    d ≤ on y m k ↔ d.year < y ∨ (d.year = y ∧ (d.month < m ∨ (d.month = m ∧ d.day ≤ k))) := by
  rw [le_iff_parts, year_on valid, month_on valid, day_on valid]

theorem newYear_le_iff {d : Date} {year : Int} : on year 1 1 ≤ d ↔ year ≤ d.year := by
  have month := d.month_bounds
  have day := d.day_bounds
  rw [on_le_iff (valid_first year (by decide))]
  omega

theorem le_yearEnd_iff {d : Date} {year : Int} : d ≤ on year 12 31 ↔ d.year ≤ year := by
  have month := d.month_bounds
  have day := d.day_le
  have last : Civil.Valid ⟨year, 12, 31⟩ := valid_last year ⟨by decide, Nat.le_refl 12⟩
  rw [le_on_iff last]
  omega

theorem lt_newYear_iff {d : Date} {year : Int} : d < on year 1 1 ↔ d.year < year := by
  have not := @newYear_le_iff d year
  rw [le_def] at not
  rw [lt_def]
  omega

theorem inRange_iff {d : Date} : d.InRange ↔ 1 ≤ d.year ∧ d.year ≤ 9999 :=
  and_congr newYear_le_iff le_yearEnd_iff

theorem representable_iff {d : Date} :
    d.Representable ↔ -1000000 ≤ d.year ∧ d.year ≤ 1000000 :=
  and_congr newYear_le_iff le_yearEnd_iff

theorem on_serial (year : Int) (month day : Nat) :
    (on year month day).serial = (on year month 1).serial + day - 1 := by
  simp only [on, ofCivil, Civil.dayNumber_eq, Civil.dayOfYear]
  omega

theorem serial_eq (d : Date) : d.serial = (on d.year d.month 1).serial + d.day - 1 := by
  rw [← on_serial, on_parts]

theorem newYear_serial (year : Int) :
    (on year 1 1).serial = Civil.daysBeforeYear year - 719162 := by
  have number := Civil.dayNumber_eq ⟨year, 1, 1⟩
  rw [show (⟨year, 1, 1⟩ : Civil).dayOfYear = 1 from rfl] at number
  simp only [on, ofCivil] at number ⊢
  omega

theorem newYear_succ (year : Int) :
    (on (year + 1) 1 1).serial = (on year 1 1).serial + Civil.yearLength year := by
  rw [newYear_serial, newYear_serial, Civil.daysBeforeYear_succ]
  omega

theorem yearEnd_serial (year : Int) :
    (on year 12 31).serial = (on (year + 1) 1 1).serial - 1 := by
  have last : Civil.Valid ⟨year, 12, 31⟩ := valid_last year ⟨by decide, Nat.le_refl 12⟩
  have next := Civil.dayNumber_following last
  rw [show (⟨year, 12, 31⟩ : Civil).following = ⟨year + 1, 1, 1⟩ from rfl] at next
  simp only [on, ofCivil, next]
  omega

theorem month_succ_serial (year : Int) {month : Nat} (h : 1 ≤ month ∧ month < 12) :
    (on year (month + 1) 1).serial =
      (on year month 1).serial + Civil.monthLength year month := by
  have next := Civil.dayNumber_following (@valid_last year month (by omega))
  have last := on_serial year month (Civil.monthLength year month)
  rw [Civil.following, if_neg (Nat.lt_irrefl _), if_pos h.2] at next
  simp only [on, ofCivil] at next last ⊢
  omega

theorem december_serial (year : Int) :
    (on (year + 1) 1 1).serial = (on year 12 1).serial + 31 := by
  have last := on_serial year 12 31
  have next := yearEnd_serial year
  omega

theorem year_spec (d : Date) :
    (on d.year 1 1).serial ≤ d.serial ∧ d.serial < (on (d.year + 1) 1 1).serial :=
  ⟨newYear_le_iff.mpr (Int.le_refl _), lt_newYear_iff.mpr (Int.lt_succ _)⟩

theorem year_eq_iff {d : Date} {year : Int} :
    d.year = year ↔ (on year 1 1).serial ≤ d.serial ∧ d.serial < (on (year + 1) 1 1).serial := by
  rw [← le_def, ← lt_def, newYear_le_iff, lt_newYear_iff]
  omega

theorem endOfMonth_on {year : Int} {month day : Nat} (valid : Civil.Valid ⟨year, month, day⟩) :
    (on year month day).endOfMonth = on year month (Civil.monthLength year month) := by
  rw [endOfMonth, monthLength, year_on valid, month_on valid]

theorem monthEnd_serial {year : Int} {month : Nat} (months : 1 ≤ month ∧ month ≤ 12) :
    (on year month 1).endOfMonth.serial =
      (on year month 1).serial + Civil.monthLength year month - 1 := by
  rw [endOfMonth_on (valid_first year months), on_serial]

theorem month_eq_iff {d : Date} {year : Int} {month : Nat} (h : 1 ≤ month ∧ month ≤ 12) :
    d.year = year ∧ d.month = month ↔
      (on year month 1).serial ≤ d.serial ∧
        d.serial < (on year month 1).serial + Civil.monthLength year month := by
  have last := on_serial year month (Civil.monthLength year month)
  have first := @on_le_iff d _ _ _ (valid_first year h)
  have upTo := @le_on_iff d _ _ _ (valid_last year h)
  have inMonth := d.day_bounds
  rw [le_def] at first upTo
  constructor
  next =>
    rintro ⟨rfl, rfl⟩
    rw [monthLength] at inMonth
    omega
  next => omega

theorem near_of_year_eq {a b : Date} (same : a.year = b.year) : a.serial - b.serial < 366 := by
  have first := a.year_spec
  have second := b.year_spec
  have length := Civil.yearLength_bounds a.year
  have next := newYear_succ a.year
  rw [← same] at second
  omega

theorem plus_serial_of_nonneg {d : Date} {n : Int} (inside : floor.serial ≤ d.serial)
    (forward : 0 ≤ n) : (d.plus n).serial = min (d.serial + n) ceiling.serial := by
  simp only [plus, saturate, floor_serial, ceiling_serial] at inside ⊢
  omega

/-- A number of days that lie between the date and either day at which adding stops. -/
def HasRoom (d : Date) (days : Int) : Prop :=
  floor.serial + days ≤ d.serial ∧ d.serial + days ≤ ceiling.serial

/-- A thousand years and more away from the days at which adding stops. -/
def Inland (d : Date) : Prop :=
  -999000 ≤ d.year ∧ d.year ≤ 999000

instance (d : Date) : Decidable d.Inland :=
  inferInstanceAs (Decidable (_ ∧ _))

namespace HasRoom

variable {d : Date} {days n : Int}

theorem plus_serial (room : d.HasRoom days) (h : -days ≤ n ∧ n ≤ days) :
    (d.plus n).serial = d.serial + n := by
  unfold HasRoom at room
  exact Date.plus_serial ⟨by omega, by omega⟩

theorem minus_serial (room : d.HasRoom days) (h : -days ≤ n ∧ n ≤ days) :
    (d.minus n).serial = d.serial - n := by
  exact room.plus_serial (show -days ≤ -n ∧ -n ≤ days by omega)

theorem plus_plus (room : d.HasRoom days) {a b : Int} (h : -days ≤ a ∧ a ≤ days) :
    (d.plus a).plus b = d.plus (a + b) := by
  rw [plus, room.plus_serial h, plus, Int.add_assoc]

theorem mono (room : d.HasRoom days) (h : n ≤ days) : d.HasRoom n := by
  unfold HasRoom at *
  omega

theorem near (room : d.HasRoom days) {e : Date}
    (h : d.serial - e.serial + n ≤ days ∧ e.serial - d.serial + n ≤ days) : e.HasRoom n := by
  unfold HasRoom at *
  omega

theorem between {e x : Date} (room : d.HasRoom days) (roomE : e.HasRoom days) (low : d ≤ x)
    (high : x ≤ e) : x.HasRoom days := by
  rw [le_def] at low high
  unfold HasRoom at *
  omega

end HasRoom

theorem Inland.hasRoom {d : Date} (inland : d.Inland) : d.HasRoom 365000 := by
  obtain ⟨low, high⟩ := inland
  rw [← newYear_le_iff, le_def] at low
  rw [← le_yearEnd_iff, le_def] at high
  have first : (on (-999000) 1 1).serial = -365596785 := rfl
  have last : (on 999000 12 31).serial = 364158094 := rfl
  simp only [HasRoom, floor_serial, ceiling_serial]
  omega

theorem InRange.serial_bounds {d : Date} (h : d.InRange) :
    -719162 ≤ d.serial ∧ d.serial ≤ 2932896 :=
  h

theorem InRange.inland {d : Date} (h : d.InRange) : d.Inland := by
  rw [inRange_iff] at h
  exact ⟨by omega, by omega⟩

theorem InRange.hasRoom {d : Date} (inRange : d.InRange) {days : Int} (h : days ≤ 361000000) :
    d.HasRoom days := by
  have bounds := inRange.serial_bounds
  simp only [HasRoom, floor_serial, ceiling_serial]
  omega

end Almanac.Date
