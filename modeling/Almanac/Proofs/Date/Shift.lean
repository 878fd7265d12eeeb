import Almanac.Proofs.Date.Civil

set_option autoImplicit false

/-!
# Moves by months

The months are counted from January of year 0, and a move by months adds to that count as long as it
stays short of the years at which adding stops.
-/

namespace Almanac.Date

theorem monthLength_bounds (d : Date) : 28 ≤ d.monthLength ∧ d.monthLength ≤ 31 :=
  Civil.monthLength_bounds d.year d.month

theorem valid_inMonth (d : Date) {day : Nat} (h : 1 ≤ day ∧ day ≤ d.monthLength) :
    Civil.Valid ⟨d.year, d.month, day⟩ :=
  ⟨d.month_bounds.1, d.month_bounds.2, h⟩

theorem monthLength_inMonth (d : Date) {day : Nat} (h : 1 ≤ day ∧ day ≤ d.monthLength) :
    (on d.year d.month day).monthLength = d.monthLength := by
  have valid := d.valid_inMonth h
  rw [monthLength, monthLength, year_on valid, month_on valid]

theorem year_eq_monthIndex (d : Date) : d.year = d.monthIndex / 12 := by
  have months := d.month_bounds
  unfold monthIndex
  omega

theorem month_eq_monthIndex (d : Date) : (d.month : Int) = d.monthIndex % 12 + 1 := by
  have months := d.month_bounds
  unfold monthIndex
  omega

section on

variable {year : Int} {month day : Nat} (valid : Civil.Valid ⟨year, month, day⟩)

include valid

theorem monthIndex_on : (on year month day).monthIndex = 12 * year + ((month : Int) - 1) := by
  rw [monthIndex, year_on valid, month_on valid]

end on

section ofMonthIndex

variable {index : Int} {day : Nat} (positive : 1 ≤ day)

include positive

theorem valid_ofMonthIndex :
    Civil.Valid ⟨index / 12, (index % 12).toNat + 1,
      min day (Civil.monthLength (index / 12) ((index % 12).toNat + 1))⟩ := by
  have length := Civil.monthLength_bounds (index / 12) ((index % 12).toNat + 1)
  refine ⟨by simp, ?_, ?_, Nat.min_le_right _ _⟩
  next => simp only; omega
  next => simp only; omega

theorem monthIndex_ofMonthIndex : (ofMonthIndex index day).monthIndex = index := by
  simp only [ofMonthIndex, monthIndex_on (valid_ofMonthIndex positive)]
  omega

theorem day_ofMonthIndex :
    (ofMonthIndex index day).day = min day (ofMonthIndex index day).monthLength := by
  have valid := @valid_ofMonthIndex index day positive
  simp only [ofMonthIndex, monthLength, day_on valid, year_on valid, month_on valid]

end ofMonthIndex

theorem monthIndex_shiftMonths_cut (d : Date) (n : Int) :
    (d.shiftMonths n).monthIndex = max (-12000000) (min (d.monthIndex + n) 12000011) :=
  monthIndex_ofMonthIndex d.day_bounds.1

theorem monthIndex_shiftMonths {d : Date} {n : Int}
    (within : -12000000 ≤ d.monthIndex + n ∧ d.monthIndex + n ≤ 12000011) :
    (d.shiftMonths n).monthIndex = d.monthIndex + n := by
  rw [monthIndex_shiftMonths_cut]
  omega

theorem day_shiftMonths (d : Date) (n : Int) :
    (d.shiftMonths n).day = min d.day (d.shiftMonths n).monthLength :=
  day_ofMonthIndex d.day_bounds.1

theorem yearMonth_of_monthIndex {d e : Date} (same : d.monthIndex = e.monthIndex) :
    d.year = e.year ∧ d.month = e.month := by
  have first := d.month_eq_monthIndex
  have second := e.month_eq_monthIndex
  rw [same] at first
  exact ⟨by rw [d.year_eq_monthIndex, e.year_eq_monthIndex, same], by omega⟩

theorem ext_monthIndex {d e : Date} (month : d.monthIndex = e.monthIndex) (day : d.day = e.day) :
    d = e := by
  have parts := yearMonth_of_monthIndex month
  rw [← on_parts d, ← on_parts e, parts.1, parts.2, day]

theorem monthLength_congr {d e : Date} (same : d.monthIndex = e.monthIndex) :
    d.monthLength = e.monthLength := by
  have parts := yearMonth_of_monthIndex same
  rw [monthLength, monthLength, parts.1, parts.2]

theorem le_iff_monthIndex {d e : Date} :
    d ≤ e ↔ d.monthIndex < e.monthIndex ∨ (d.monthIndex = e.monthIndex ∧ d.day ≤ e.day) := by
  have first := d.month_bounds
  have second := e.month_bounds
  rw [le_iff_parts, monthIndex, monthIndex]
  omega

theorem shiftMonths_eq_iff {d e : Date} {n : Int}
    (within : -12000000 ≤ d.monthIndex + n ∧ d.monthIndex + n ≤ 12000011) :
    d.shiftMonths n = e ↔ e.monthIndex = d.monthIndex + n ∧ e.day = min d.day e.monthLength := by
  have index := monthIndex_shiftMonths within
  constructor
  next =>
    rintro rfl
    exact ⟨index, d.day_shiftMonths n⟩
  next =>
    rintro ⟨month, day⟩
    have same : (d.shiftMonths n).monthIndex = e.monthIndex := index.trans month.symm
    refine ext_monthIndex same ?_
    rw [day_shiftMonths, day, monthLength_congr same]

-- Days that are cut to the same length of a month stay in order.
theorem shiftMonths_mono {d e : Date} {n : Int} (h : d ≤ e)
    (low : -12000000 ≤ d.monthIndex + n) (high : e.monthIndex + n ≤ 12000011) :
    d.shiftMonths n ≤ e.shiftMonths n := by
  rw [le_iff_monthIndex] at h
  have first := @monthIndex_shiftMonths d n (by omega)
  have second := @monthIndex_shiftMonths e n (by omega)
  rw [le_iff_monthIndex, first, second]
  rcases h with earlier | ⟨same, day⟩
  next => exact .inl (by omega)
  next =>
    have length : (d.shiftMonths n).monthLength = (e.shiftMonths n).monthLength :=
      monthLength_congr (by omega)
    rw [day_shiftMonths, day_shiftMonths, length]
    omega

theorem day_shiftMonths_of_short {d : Date} (short : d.day ≤ 28) (n : Int) :
    (d.shiftMonths n).day = d.day := by
  have length := (d.shiftMonths n).monthLength_bounds
  rw [day_shiftMonths]
  omega

theorem shiftMonths_shiftMonths {d : Date} {a b : Int} (short : d.day ≤ 28)
    (first : -12000000 ≤ d.monthIndex + a ∧ d.monthIndex + a ≤ 12000011)
    (whole : -12000000 ≤ d.monthIndex + (a + b) ∧ d.monthIndex + (a + b) ≤ 12000011) :
    (d.shiftMonths a).shiftMonths b = d.shiftMonths (a + b) := by
  have index := monthIndex_shiftMonths first
  have day := day_shiftMonths_of_short short a
  apply ext_monthIndex
  next =>
    rw [monthIndex_shiftMonths (by omega), monthIndex_shiftMonths whole, index, Int.add_assoc]
  next => rw [day_shiftMonths_of_short (by omega), day, day_shiftMonths_of_short short]

theorem firstHalf_shiftMonths (d : Date) (n : Int) :
    (d.shiftMonths n).day ≤ 15 ↔ d.day ≤ 15 := by
  have day := d.day_shiftMonths n
  have length := (d.shiftMonths n).monthLength_bounds
  omega

theorem monthIndex_startOfMonth (d : Date) : d.startOfMonth.monthIndex = d.monthIndex :=
  monthIndex_on (valid_first d.year d.month_bounds)

theorem monthIndex_following {a b : Date} (next : b.serial = a.serial + 1) :
    (b.monthIndex = a.monthIndex ∧ b.day = a.day + 1) ∨
      (b.monthIndex = a.monthIndex + 1 ∧ b.day = 1 ∧ a.day = a.monthLength) := by
  have months := a.month_bounds
  have inMonth := a.day_bounds
  have civil : b.civil = a.civil.following := by
    rw [civil, next, Civil.ofDayNumber_succ, ← civil]
  simp only [monthIndex, monthLength, year, month, day] at months inMonth ⊢
  rw [civil]
  unfold Civil.following
  split
  next => exact .inl ⟨rfl, rfl⟩
  next =>
    split
    next => exact .inr ⟨by simp only; omega, rfl, by omega⟩
    next => exact .inr ⟨by simp only; omega, rfl, by omega⟩

theorem inland_of_monthIndex {d : Date}
    (within : -11988000 ≤ d.monthIndex ∧ d.monthIndex ≤ 11988000) : d.Inland := by
  rw [Inland, year_eq_monthIndex]
  omega

theorem Inland.monthIndex_bounds {d : Date} (inland : d.Inland) :
    -11988000 ≤ d.monthIndex ∧ d.monthIndex ≤ 11988011 := by
  have year := d.year_eq_monthIndex
  unfold Inland at inland
  omega

theorem inland_of_serial {d : Date} (within : -365000000 ≤ d.serial ∧ d.serial ≤ 364000000) :
    d.Inland := by
  have first : (on (-999000) 1 1).serial = -365596785 := rfl
  have last : (on 999000 12 31).serial = 364158094 := rfl
  rw [Inland, ← newYear_le_iff, ← le_yearEnd_iff, le_def, le_def]
  omega

theorem InRange.monthIndex_bounds {d : Date} (h : d.InRange) :
    12 ≤ d.monthIndex ∧ d.monthIndex < 120000 := by
  have years := inRange_iff.mp h
  have year := d.year_eq_monthIndex
  omega

end Almanac.Date
