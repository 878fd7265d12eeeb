import Almanac.Proofs.Date.Shift

set_option autoImplicit false

/-!
# Half a year around a date

The days that are less than six months away lie between the like days six months back and six months
on, which are cut to their months, less two days at either end. Six months are 181 to 184 days
wherever they lie in the year.
-/

namespace Almanac

-- Year 1 is a common year and year 0 a leap year.
theorem Civil.monthLength_between (year : Int) (month : Nat) :
    monthLength 1 month ≤ monthLength year month ∧
      monthLength year month ≤ monthLength 0 month := by
  have common : ¬isLeap 1 = true := by decide
  exact ⟨monthLength_mono (absurd · common) month, monthLength_mono (fun _ => rfl) month⟩

namespace Date

def lengthOf (index : Int) : Nat :=
  Civil.monthLength (index / 12) ((index % 12).toNat + 1)

def daysOf (length : Nat → Nat) : (count : Nat) → Nat
  | 0 => 0
  | count + 1 => daysOf length count + length count

theorem daysOf_mono {length longer : Nat → Nat} (h : ∀ i, length i ≤ longer i) (count : Nat) :
    daysOf length count ≤ daysOf longer count := by
  induction count with
  | zero => exact Nat.le_refl _
  | succ count ih => exact Nat.add_le_add ih (h count)

variable {a b d other : Date}

theorem monthLength_eq_lengthOf (d : Date) : d.monthLength = lengthOf d.monthIndex := by
  have month := d.month_eq_monthIndex
  have same : d.month = (d.monthIndex % 12).toNat + 1 := by omega
  rw [monthLength, lengthOf, ← year_eq_monthIndex, ← same]

theorem serial_of_sameMonth (same : b.monthIndex = a.monthIndex) :
    b.serial - b.day = a.serial - a.day := by
  have parts := yearMonth_of_monthIndex same
  have first := a.serial_eq
  have second := b.serial_eq
  rw [parts.1, parts.2] at second
  omega

theorem serial_of_nextMonth (next : b.monthIndex = a.monthIndex + 1) :
    b.serial - b.day = a.serial - a.day + a.monthLength := by
  have first := a.serial_eq
  have second := b.serial_eq
  have months := a.month_bounds
  have monthsB := b.month_bounds
  unfold monthIndex at next
  rw [monthLength]
  by_cases december : a.month = 12
  next =>
    have parts : b.year = a.year + 1 ∧ b.month = 1 := by omega
    rw [parts.1, parts.2, december_serial] at second
    rw [december] at first ⊢
    rw [show Civil.monthLength a.year 12 = 31 from rfl]
    omega
  next =>
    have parts : b.year = a.year ∧ b.month = a.month + 1 := by omega
    rw [parts.1, parts.2, month_succ_serial a.year (by omega)] at second
    omega

theorem serial_of_laterMonth {count : Nat} (later : b.monthIndex = a.monthIndex + count) :
    b.serial - b.day =
      a.serial - a.day + daysOf (fun i => lengthOf (a.monthIndex + i)) count := by
  induction count generalizing b with
  | zero =>
    rw [serial_of_sameMonth (later.trans (Int.add_zero _)), daysOf, Int.natCast_zero, Int.add_zero]
  | succ count ih =>
    have index := @monthIndex_ofMonthIndex (a.monthIndex + count) 1 (by decide)
    have last := @serial_of_nextMonth (ofMonthIndex (a.monthIndex + count) 1) b (by omega)
    rw [last, ih index, monthLength_eq_lengthOf, index, daysOf, Int.natCast_add, Int.add_assoc]

theorem lengthOf_between {index : Int} {place : Nat} (h : index % 12 = place) (i : Nat) :
    Civil.monthLength 1 ((place + i) % 12 + 1) ≤ lengthOf (index + i) ∧
      lengthOf (index + i) ≤ Civil.monthLength 0 ((place + i) % 12 + 1) := by
  have month : ((index + i) % 12).toNat = (place + i) % 12 := by omega
  rw [lengthOf, month]
  exact Civil.monthLength_between _ _

theorem monthStarts_halfYear (later : b.monthIndex = a.monthIndex + 6) :
    181 ≤ (b.serial - b.day) - (a.serial - a.day) ∧
      (b.serial - b.day) - (a.serial - a.day) ≤ 184 := by
  obtain ⟨place, inYear⟩ : ∃ place : Fin 12, a.monthIndex % 12 = place.val :=
    ⟨⟨(a.monthIndex % 12).toNat, by omega⟩, by simp only; omega⟩
  have days := @serial_of_laterMonth a b 6 later
  have low := daysOf_mono (fun i => (lengthOf_between inYear i).1) 6
  have high := daysOf_mono (fun i => (lengthOf_between inYear i).2) 6
  -- With February at its shortest or at its longest no six months are shorter or longer.
  have short : ∀ place : Fin 12,
      181 ≤ daysOf (fun i => Civil.monthLength 1 ((place.val + i) % 12 + 1)) 6 := by decide
  have long : ∀ place : Fin 12,
      daysOf (fun i => Civil.monthLength 0 ((place.val + i) % 12 + 1)) 6 ≤ 184 := by decide
  have shortest := short place
  have longest := long place
  omega

theorem monthEnds_halfYear (later : b.monthIndex = a.monthIndex + 6) :
    181 ≤ (b.serial - b.day + b.monthLength) - (a.serial - a.day + a.monthLength) ∧
      (b.serial - b.day + b.monthLength) - (a.serial - a.day + a.monthLength) ≤ 184 := by
  have index (i : Int) := @monthIndex_ofMonthIndex i 1 (by decide)
  rw [← serial_of_nextMonth (index (a.monthIndex + 1)),
    ← serial_of_nextMonth (index (b.monthIndex + 1))]
  apply monthStarts_halfYear
  rw [index, index]
  omega

theorem halfYear_serial (later : b.monthIndex = a.monthIndex + 6)
    (like : a.day = min b.day a.monthLength ∨ b.day = min a.day b.monthLength) :
    181 ≤ b.serial - a.serial ∧ b.serial - a.serial ≤ 184 := by
  -- A day that is cut short lies no further off than the ends of the two months do.
  have starts := monthStarts_halfYear later
  have ends := monthEnds_halfYear later
  have inMonthA := a.day_bounds
  have inMonthB := b.day_bounds
  omega

theorem inMonth_eq_shiftMonths (d : Date) (n : Int) : d.inMonth n = d.shiftMonths n := by
  have same : (d.startOfMonth.shiftMonths n).monthIndex = (d.shiftMonths n).monthIndex := by
    rw [monthIndex_shiftMonths_cut, monthIndex_shiftMonths_cut, monthIndex_startOfMonth]
  have parts := yearMonth_of_monthIndex same
  rw [inMonth, parts.1, parts.2, monthLength_congr same, ← day_shiftMonths, on_parts]

theorem halfYearAround_eq (d : Date) :
    d.halfYearAround = ((d.shiftMonths (-6)).plus 2, (d.shiftMonths 6).minus 2) := by
  unfold halfYearAround
  rw [inMonth_eq_shiftMonths, inMonth_eq_shiftMonths, ite_self]

theorem withinHalfYearOf_iff : d.withinHalfYearOf other = true ↔
    (other.shiftMonths (-6)).plus 2 ≤ d ∧ d ≤ (other.shiftMonths 6).minus 2 := by
  unfold withinHalfYearOf
  rw [halfYearAround_eq, Bool.and_eq_true, decide_eq_true_iff, decide_eq_true_iff]

section

variable (inland : d.Inland)

include inland

theorem shiftMonths_halfYear :
    (181 ≤ d.serial - (d.shiftMonths (-6)).serial ∧ d.serial - (d.shiftMonths (-6)).serial ≤ 184) ∧
      181 ≤ (d.shiftMonths 6).serial - d.serial ∧ (d.shiftMonths 6).serial - d.serial ≤ 184 := by
  have months := inland.monthIndex_bounds
  have back := @monthIndex_shiftMonths d (-6) (by omega)
  have ahead := @monthIndex_shiftMonths d 6 (by omega)
  exact ⟨halfYear_serial (by omega) (.inl (d.day_shiftMonths (-6))),
    halfYear_serial ahead (.inr (d.day_shiftMonths 6))⟩

theorem window_serial :
    ((d.shiftMonths (-6)).plus 2).serial = (d.shiftMonths (-6)).serial + 2 ∧
      ((d.shiftMonths 6).minus 2).serial = (d.shiftMonths 6).serial - 2 := by
  have far := shiftMonths_halfYear inland
  have room := inland.hasRoom
  have back : (d.shiftMonths (-6)).HasRoom 2 := room.near (by omega)
  have ahead : (d.shiftMonths 6).HasRoom 2 := room.near (by omega)
  exact ⟨back.plus_serial (by decide), ahead.minus_serial (by decide)⟩

end

/-- A day is less than six months away from a date when it lies two days or more inside the like
days six months back and six months on, each cut to its month. Up to 179 days away it always is,
and more than 182 days away it never is. -/
theorem withinHalfYearOf_window (d : Date) {other : Date} (inland : other.Inland) :
    (d.withinHalfYearOf other = true ↔
      (other.shiftMonths (-6)).plus 2 ≤ d ∧ d ≤ (other.shiftMonths 6).minus 2) ∧
    (∀ n, n = -6 ∨ n = 6 → (other.shiftMonths n).monthIndex = other.monthIndex + n ∧
      (other.shiftMonths n).day = min other.day (other.shiftMonths n).monthLength) ∧
    ((other.daysTo d).natAbs ≤ 179 → d.withinHalfYearOf other = true) ∧
    (d.withinHalfYearOf other = true → (other.daysTo d).natAbs ≤ 182) := by
  have months := inland.monthIndex_bounds
  have far := shiftMonths_halfYear inland
  have window := window_serial inland
  have within := @withinHalfYearOf_iff d other
  rw [le_def, le_def, window.1, window.2] at within
  refine ⟨withinHalfYearOf_iff, fun n six => ?_, ?_, ?_⟩
  next => exact ⟨monthIndex_shiftMonths (by omega), other.day_shiftMonths n⟩
  next =>
    intro near
    unfold daysTo at near
    exact within.mpr (by omega)
  next =>
    intro near
    have days := within.mp near
    unfold daysTo
    omega

-- February cuts the day short, so the 2nd of March is the first day of the window around the end of
-- August; it lies 182 days before it, and the last day 179 days after it.
theorem withinHalfYearOf_window_end_of_month :
    (on 2014 8 31).Inland ∧ (on 2014 8 31).shiftMonths (-6) = on 2014 2 28 ∧
      (on 2014 3 1).withinHalfYearOf (on 2014 8 31) = false ∧
      (on 2014 3 2).withinHalfYearOf (on 2014 8 31) = true ∧
      ((on 2014 8 31).daysTo (on 2014 3 2)).natAbs ≤ 182 ∧
      (on 2015 2 26).withinHalfYearOf (on 2014 8 31) = true := by
  have inland : (on 2014 8 31).Inland := by decide
  have back : (on 2014 8 31).shiftMonths (-6) = on 2014 2 28 := by decide
  obtain ⟨early, -⟩ := withinHalfYearOf_window (on 2014 3 1) inland
  obtain ⟨first, -, -, near⟩ := withinHalfYearOf_window (on 2014 3 2) inland
  obtain ⟨-, -, last, -⟩ := withinHalfYearOf_window (on 2015 2 26) inland
  rw [back] at early first
  have outside := (not_congr early).mpr (by decide)
  have inside := first.mpr (by decide)
  exact ⟨inland, back, Bool.eq_false_iff.mpr outside, inside, near inside, last (by decide)⟩

end Date

end Almanac
