import Almanac.Proofs.Date.Shift

set_option autoImplicit false

/-!
# Dates next to the days at which adding stops

Moves by days stop at these days, and moves by months at the years that they bound.
-/

namespace Almanac.Date

theorem representable_on {year : Int} {month day : Nat} (valid : Civil.Valid ⟨year, month, day⟩)
    (near : -1000000 ≤ year ∧ year ≤ 1000000) : (on year month day).Representable := by
  rwa [representable_iff, year_on valid]

theorem InRange.representable {d : Date} (inRange : d.InRange) : d.Representable := by
  have years := inRange_iff.mp inRange
  rw [representable_iff]
  omega

namespace Representable

variable {d : Date} (inYears : d.Representable)

include inYears

theorem serial_bounds : -365962028 ≤ d.serial ∧ d.serial ≤ 364523337 :=
  inYears

theorem next_serial (below : d < ceiling) : d.next.serial = d.serial + 1 := by
  have bounds := inYears.serial_bounds
  rw [lt_def, ceiling_serial] at below
  apply plus_serial
  rw [floor_serial, ceiling_serial]
  omega

theorem year_bounds : -1000000 ≤ d.year ∧ d.year ≤ 1000000 :=
  representable_iff.mp inYears

theorem monthIndex_bounds : -12000000 ≤ d.monthIndex ∧ d.monthIndex ≤ 12000011 := by
  have years := inYears.year_bounds
  have year := d.year_eq_monthIndex
  omega

theorem inMonth {day : Nat} (h : 1 ≤ day ∧ day ≤ d.monthLength) :
    (on d.year d.month day).Representable :=
  representable_on (d.valid_inMonth h) inYears.year_bounds

theorem startOfMonth : d.startOfMonth.Representable :=
  representable_on (valid_first d.year d.month_bounds) inYears.year_bounds

theorem endOfMonth : d.endOfMonth.Representable :=
  representable_on (valid_last d.year d.month_bounds) inYears.year_bounds

theorem plus_zero : d.plus 0 = d := by
  rw [plus, Int.add_zero, saturate_serial inYears]

theorem shiftMonths_zero : d.shiftMonths 0 = d := by
  have months := inYears.monthIndex_bounds
  rw [shiftMonths_eq_iff (by omega), Int.add_zero]
  exact ⟨rfl, (Nat.min_eq_left d.day_bounds.2).symm⟩

end Representable

theorem representable_shiftMonths (d : Date) (n : Int) : (d.shiftMonths n).Representable := by
  have index := d.monthIndex_shiftMonths_cut n
  rw [representable_iff, year_eq_monthIndex, index]
  omega

theorem representable_plus (d : Date) (n : Int) : (d.plus n).Representable :=
  representable_saturate _

theorem representable_minus (d : Date) (n : Int) : (d.minus n).Representable :=
  representable_saturate _

end Almanac.Date
