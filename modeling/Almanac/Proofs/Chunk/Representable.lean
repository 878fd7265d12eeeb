import Almanac.Period.Basic
import Almanac.Proofs.Chunk.Span
import Almanac.Proofs.Date.Representable

set_option autoImplicit false

/-!
# Periods next to the days at which adding stops

The bounds of a period and the moves by periods stay between the days at which adding stops, and the
weeks of a year are numbered up to 53 even next to those days.
-/

namespace Almanac

namespace Date

variable {d : Date} {settings : Settings}

theorem weekOrigin_near (inYears : d.Representable) (settings : Settings) :
    (d.weekOrigin settings).serial ≤ d.serial ∧
      d.serial < (d.weekOrigin settings).serial + 371 := by
  have bounds := inYears.serial_bounds
  have inYear := d.year_spec
  have length := Civil.yearLength_bounds d.year
  have next := newYear_succ d.year
  have last : Civil.Valid ⟨d.year, 12, 31⟩ := valid_last d.year ⟨by decide, Nat.le_refl 12⟩
  have yearEnd := (representable_on last inYears.year_bounds).serial_bounds
  rw [yearEnd_serial] at yearEnd
  have start := weekYearStart_bounds settings d.year
  have before := weekYearStart_succ settings (d.year - 1)
  rw [Int.sub_add_cancel] at before
  unfold weekOrigin
  simp only [firstWeekStart_eq, lt_def]
  split
  next early =>
    -- The year before has whole weeks only, 52 or 53 of them.
    simp only [saturate, floor_serial, ceiling_serial] at early ⊢
    omega
  next late =>
    simp only [saturate, floor_serial, ceiling_serial] at late ⊢
    omega

theorem weekNumber_bounds (inYears : d.Representable) (settings : Settings) :
    1 ≤ d.weekNumber settings ∧ d.weekNumber settings ≤ 53 := by
  have near := weekOrigin_near inYears settings
  unfold weekNumber
  omega

end Date

namespace Chunk

variable {d : Date}

theorem representable_beginningOf (chunk : Chunk) (inYears : d.Representable)
    (settings : Settings) : (chunk.beginningOf d settings).Representable := by
  have span {size : Nat} (positive : 0 < size) (divides : size ∣ 12) :
      (Date.on d.year (firstMonth size d.month) 1).Representable := by
    have months := firstMonth_bounds positive divides d.month_bounds
    exact Date.representable_on (Date.valid_first d.year (by omega)) inYears.year_bounds
  cases chunk with
  | year | half | quarter | bimonth | month => exact span (by decide) (by decide)
  | semimonth =>
    have length := d.monthLength_bounds
    exact inYears.inMonth (by split <;> omega)
  | biweek =>
    simp only [beginningOf]
    split
    next => exact Date.representable_minus _ _
    next => exact Date.representable_minus _ _
  | week => exact Date.representable_minus _ _
  | day => exact inYears

theorem representable_endOf (chunk : Chunk) (inYears : d.Representable) (settings : Settings) :
    (chunk.endOf d settings).Representable := by
  have span {size : Nat} (positive : 0 < size) (divides : size ∣ 12) :
      (Date.on d.year (lastMonth size d.month) 1).endOfMonth.Representable := by
    have months := firstMonth_bounds positive divides d.month_bounds
    have valid := Date.valid_first d.year (show 1 ≤ lastMonth size d.month ∧ _ by omega)
    exact (Date.representable_on valid inYears.year_bounds).endOfMonth
  cases chunk with
  | year | half | quarter | bimonth | month => exact span (by decide) (by decide)
  | semimonth =>
    have length := d.monthLength_bounds
    simp only [endOf]
    split
    next => exact inYears.inMonth (by omega)
    next => exact inYears.endOfMonth
  | biweek =>
    simp only [endOf]
    split
    next => exact Date.representable_plus _ _
    next => exact Date.representable_plus _ _
  | week => exact Date.representable_plus _ _
  | day => exact inYears

theorem representable_halfMonthOn (inYears : d.Representable) :
    (halfMonthOn d).Representable := by
  have inMonth := d.day_bounds
  unfold halfMonthOn
  split
  next => exact inYears.inMonth (by omega)
  next =>
    have following := d.startOfMonth.representable_shiftMonths 1
    have length := (d.startOfMonth.shiftMonths 1).monthLength_bounds
    exact following.inMonth (by omega)

theorem representable_halfMonthBack (inYears : d.Representable) :
    (halfMonthBack d).Representable := by
  have inMonth := d.day_bounds
  unfold halfMonthBack
  split
  next =>
    have preceding := d.startOfMonth.representable_shiftMonths (-1)
    have length := (d.startOfMonth.shiftMonths (-1)).monthLength_bounds
    exact preceding.inMonth (by omega)
  next => exact inYears.inMonth (by omega)

theorem representable_advance (chunk : Chunk) (inYears : d.Representable) (n : Int) :
    (chunk.advance d n).Representable := by
  unfold advance
  split
  next => exact inYears
  next =>
    cases chunk with
    | year | half | quarter | bimonth | month => exact Date.representable_shiftMonths _ _
    | semimonth =>
      have moved := d.representable_shiftMonths (n.tdiv 2)
      simp only [advanceSemimonths]
      split
      next => exact representable_halfMonthOn moved
      next =>
        split
        next => exact representable_halfMonthBack moved
        next => exact moved
    | biweek | week | day => exact Date.representable_plus _ _

end Chunk

theorem Skip.representable_apply (skip : Skip) (d : Date) : (skip.apply d).Representable := by
  unfold Skip.apply
  split
  next => exact Date.representable_minus _ _
  next => exact Date.representable_plus _ _

end Almanac
