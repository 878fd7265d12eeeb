import Almanac.Proofs.Date.DaysOn

set_option autoImplicit false

/-!
# Occurrences of a weekday in a month

The nth weekday of a month is found exactly when the month has as many of them, and else the first
check that fails is the error.
-/

namespace Almanac.Date

variable {weekday : Weekday} {nth year : Int} {month : Nat} {d : Date}

theorem range_sorted (first last : Date) : (range first last).Pairwise (· < ·) := by
  rw [range, List.pairwise_map]
  apply List.pairwise_lt_range.imp
  intro i j earlier
  simp only [lt_def]
  omega

theorem daysOn_sorted (weekday : Weekday) (year : Int) (month : Nat) :
    (daysOn weekday year month).Pairwise (· < ·) :=
  (range_sorted _ _).filter _

theorem mem_daysOn (months : 1 ≤ month ∧ month ≤ 12) :
    d ∈ daysOn weekday year month ↔ d.year = year ∧ d.month = month ∧ d.weekday = weekday := by
  have last := on_serial year month (Civil.monthLength year month)
  rw [daysOn, List.mem_filter, mem_range, beq_iff_eq, ← and_assoc, month_eq_iff months, le_def,
    le_def]
  apply and_congr_left'
  omega

theorem nthOn_eq_none (ordinal : 1 ≤ nth.natAbs) :
    nthOn nth weekday year month = none ↔ (daysOn weekday year month).length < nth.natAbs := by
  rw [nthOn]
  split
  next =>
    rw [List.getElem?_eq_none_iff]
    omega
  next =>
    rw [List.getElem?_eq_none_iff, List.length_reverse]
    omega

theorem checkRange_eq_error {quantity : Quantity} {value low high : Int}
    (outside : ¬(low ≤ value ∧ value ≤ high)) :
    checkRange quantity value low high = .error (.outOfRange quantity value low high) :=
  if_neg outside

theorem nthWeekday_eq (nth : Int) (weekday : Weekday) (year : Int) (month : Nat) :
    nthWeekday nth weekday year month =
      if ¬(1 ≤ month ∧ month ≤ 12) then .error (.outOfRange .monthNumber month 1 12)
      else if ¬(1 ≤ nth.natAbs ∧ nth.natAbs ≤ 5) then
        .error (.outOfRange .ordinalDay nth.natAbs 1 5)
      else if ¬(1 ≤ year ∧ year ≤ 9999) then .error (.invalidDate (.year year))
      else match nthOn nth weekday year month with
        | some d => .ok d
        | none => .error (.noSuchOccurrence (.weekday nth weekday year month)) := by
  split
  next noMonth =>
    rw [nthWeekday_eq_nthFrom, checkRange_eq_error (by omega)]
    rfl
  next inYear =>
    have months := Decidable.of_not_not inYear
    have monthOk : checkRange .monthNumber month 1 12 = .ok () := checkRange_eq_ok.mpr (by omega)
    split
    next noOrdinal =>
      rw [nthWeekday_eq_nthFrom, monthOk, checkRange_eq_error (by omega)]
      rfl
    next inMonth =>
      have ordinal := Decidable.of_not_not inMonth
      have ordinalOk : checkRange .ordinalDay nth.natAbs 1 5 = .ok () :=
        checkRange_eq_ok.mpr (by omega)
      split
      next unknown =>
        rw [nthWeekday_eq_nthFrom, monthOk, ordinalOk, ofYearMonthDay, if_pos unknown]
        rfl
      next inRange =>
        have known := Decidable.of_not_not inRange
        have notZero : nth ≠ 0 := by omega
        split
        next d found => exact (nthWeekday_eq_ok_iff_nthOn months notZero).mpr ⟨known, found⟩
        next missing =>
          -- What is found before the last check has left the month, since the list ends before it.
          have none : ∀ d, nthWeekday nth weekday year month ≠ .ok d := by
            intro d found
            rw [nthWeekday_eq_ok_iff_nthOn months notZero, missing] at found
            cases found.2
          rw [nthWeekday_eq_nthFrom, monthOk, ordinalOk,
            ofYearMonthDay_of_valid known (valid_first year months)] at none ⊢
          dsimp only [bind, Except.bind] at none ⊢
          split
          next inside => exact absurd (if_pos inside) (none _)
          next => rfl

theorem nthWeekday_eq_ok_iff :
    nthWeekday nth weekday year month = .ok d ↔
      ((1 ≤ month ∧ month ≤ 12) ∧ (1 ≤ nth.natAbs ∧ nth.natAbs ≤ 5) ∧
        (1 ≤ year ∧ year ≤ 9999) ∧ nth.natAbs ≤ (daysOn weekday year month).length) ∧
      nthOn nth weekday year month = some d := by
  rw [nthWeekday_eq]
  split
  next noMonth => simp [noMonth]
  next =>
    split
    next noOrdinal => simp [noOrdinal]
    next ordinal =>
      have few := @nthOn_eq_none weekday nth year month (by omega)
      split
      next unknown => simp [unknown]
      next =>
        cases found : nthOn nth weekday year month with
        | none => simp
        | some e =>
          have enough : ¬(daysOn weekday year month).length < nth.natAbs := by
            rw [← few, found]
            exact Option.some_ne_none e
          rw [Except.ok.injEq, Option.some.injEq]
          exact (and_iff_right ⟨by omega, by omega, by omega, by omega⟩).symm

theorem nthWeekday_eq_error_iff {fault : Error} :
    nthWeekday nth weekday year month = .error fault ↔
      if ¬(1 ≤ month ∧ month ≤ 12) then fault = .outOfRange .monthNumber month 1 12
      else if ¬(1 ≤ nth.natAbs ∧ nth.natAbs ≤ 5) then
        fault = .outOfRange .ordinalDay nth.natAbs 1 5
      else if ¬(1 ≤ year ∧ year ≤ 9999) then fault = .invalidDate (.year year)
      else (daysOn weekday year month).length < nth.natAbs ∧
        fault = .noSuchOccurrence (.weekday nth weekday year month) := by
  rw [nthWeekday_eq]
  split
  next => rw [Except.error.injEq, eq_comm]
  next =>
    split
    next => rw [Except.error.injEq, eq_comm]
    next ordinal =>
      split
      next => rw [Except.error.injEq, eq_comm]
      next =>
        rw [← nthOn_eq_none (by omega)]
        cases nthOn nth weekday year month with
        | none => rw [Except.error.injEq, eq_comm, eq_self, true_and]
        | some e => simp

/-- The nth weekday of a month is the nth of the days of the month on that weekday, in order or back
from the last. It is refused for the first of month, ordinal and year that is out of bounds, and
else when the month has too few of these days. -/
theorem nthWeekday_counts (nth : Int) (weekday : Weekday) (year : Int) (month : Nat) :
    (∀ d, nthWeekday nth weekday year month = .ok d ↔
      ((1 ≤ month ∧ month ≤ 12) ∧ (1 ≤ nth.natAbs ∧ nth.natAbs ≤ 5) ∧
        (1 ≤ year ∧ year ≤ 9999) ∧ nth.natAbs ≤ (daysOn weekday year month).length) ∧
      nthOn nth weekday year month = some d) ∧
    (∀ fault, nthWeekday nth weekday year month = .error fault ↔
      if ¬(1 ≤ month ∧ month ≤ 12) then fault = .outOfRange .monthNumber month 1 12
      else if ¬(1 ≤ nth.natAbs ∧ nth.natAbs ≤ 5) then
        fault = .outOfRange .ordinalDay nth.natAbs 1 5
      else if ¬(1 ≤ year ∧ year ≤ 9999) then fault = .invalidDate (.year year)
      else (daysOn weekday year month).length < nth.natAbs ∧
        fault = .noSuchOccurrence (.weekday nth weekday year month)) ∧
    (1 ≤ month ∧ month ≤ 12 → (daysOn weekday year month).Pairwise (· < ·) ∧
      ∀ d, d ∈ daysOn weekday year month ↔
        d.year = year ∧ d.month = month ∧ d.weekday = weekday) ∧
    ∀ d : Date, d.InRange → (d.isNthWeekday nth weekday month = true ↔
      d.month = month ∧ d.weekday = weekday ∧
        (nth = ((d.day : Int) - 1) / 7 + 1 ∨
          nth = -(((d.monthLength : Int) - d.day) / 7 + 1))) := by
  refine ⟨fun d => nthWeekday_eq_ok_iff, fun fault => nthWeekday_eq_error_iff,
    fun months => ⟨daysOn_sorted weekday year month, fun d => mem_daysOn months⟩, ?_⟩
  intro d inRange
  rw [isNthWeekday_iff, nthWeekday_eq_ok]
  constructor
  next => exact fun found => ⟨found.2.2.1, found.2.2.2⟩
  next => exact fun place => ⟨inRange, rfl, place.1, place.2⟩

theorem nthWeekday_counts_november :
    (1 ≤ 11 ∧ 11 ≤ 12) ∧ (Date.on 2024 11 28).InRange ∧
      Date.on 2024 11 28 ∈ daysOn .thursday 2024 11 ∧
      nthWeekday 5 .thursday 2024 11 =
        .error (.noSuchOccurrence (.weekday 5 .thursday 2024 11)) ∧
      (Date.on 2024 11 28).isNthWeekday (-1) .thursday 11 = true := by
  have months : 1 ≤ 11 ∧ 11 ≤ 12 := by decide
  have inRange : (Date.on 2024 11 28).InRange := by decide
  have fifth := nthWeekday_counts 5 .thursday 2024 11
  have last := nthWeekday_counts (-1) .thursday 2024 11
  exact ⟨months, inRange, ((fifth.2.2.1 months).2 _).mpr (by decide),
    (fifth.2.1 _).mpr (by decide), (last.2.2.2 _ inRange).mpr (by decide)⟩

end Almanac.Date
