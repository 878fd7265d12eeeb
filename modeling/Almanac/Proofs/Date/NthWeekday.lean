import Almanac.Date.NthWeekday
import Almanac.Proofs.Date.Checked
import Almanac.Proofs.Week

set_option autoImplicit false

/-!
# The place of a weekday in its month

A date is the nth of its weekday in its month, counted from the start or from the end, and both
counts are read off its day.
-/

namespace Almanac.Date

def placeFromStart (d : Date) : Int :=
  ((d.day : Int) - 1) / 7 + 1

def placeFromEnd (d : Date) : Int :=
  -(((d.monthLength : Int) - d.day) / 7 + 1)

-- The day that the search of `nthWeekday` finds before it looks whether it is still in the month.
def nthFrom (first : Date) (nth : Int) (weekday : Weekday) : Date :=
  if 0 < nth then first.plus (first.weekday.daysUntil weekday + 7 * (nth - 1))
  else first.endOfMonth.minus
    (weekday.daysUntil first.endOfMonth.weekday + 7 * (-nth - 1))

theorem nthWeekday_eq_nthFrom (nth : Int) (weekday : Weekday) (year : Int) (month : Nat) :
    nthWeekday nth weekday year month = (do
      checkRange .monthNumber month 1 12
      checkRange .ordinalDay nth.natAbs 1 5
      let first ← ofYearMonthDay year month 1
      let found := nthFrom first nth weekday
      if found.month = month ∧ found.year = year then .ok found
      else .error (.noSuchOccurrence (.weekday nth weekday year month))) :=
  rfl

theorem nthFrom_eq_iff {d : Date} {nth : Int} {weekday : Weekday} (inRange : d.InRange)
    (ordinal : 1 ≤ nth.natAbs ∧ nth.natAbs ≤ 5) :
    nthFrom (on d.year d.month 1) nth weekday = d ↔
      d.weekday = weekday ∧ (nth = d.placeFromStart ∨ nth = d.placeFromEnd) := by
  have room := inRange.inland.hasRoom
  have day := d.day_bounds
  have length := Civil.monthLength_bounds d.year d.month
  have serial := d.serial_eq
  have last := on_serial d.year d.month d.monthLength
  have small := weekday.sundayIndex_lt
  rw [weekday_eq_iff, placeFromStart, placeFromEnd, nthFrom,
    endOfMonth_on (valid_first d.year d.month_bounds)]
  rw [monthLength] at *
  rw [eq_iff_serial]
  split
  next fromStart =>
    have firstRoom : (on d.year d.month 1).HasRoom 300 := room.near (by omega)
    have offset := Weekday.daysUntil_eq (on d.year d.month 1).weekday weekday
    rw [sundayIndex_weekday] at offset
    rw [firstRoom.plus_serial (by omega)]
    omega
  next fromEnd =>
    have lastRoom : (on d.year d.month (Civil.monthLength d.year d.month)).HasRoom 300 :=
      room.near (by omega)
    have offset := Weekday.daysUntil_eq weekday
      (on d.year d.month (Civil.monthLength d.year d.month)).weekday
    rw [sundayIndex_weekday] at offset
    rw [lastRoom.minus_serial (by omega)]
    omega

theorem nthWeekday_eq_ok {nth : Int} {weekday : Weekday} {year : Int} {month : Nat} {d : Date} :
    nthWeekday nth weekday year month = .ok d ↔
      d.InRange ∧ d.year = year ∧ d.month = month ∧ d.weekday = weekday ∧
        (nth = d.placeFromStart ∨ nth = d.placeFromEnd) := by
  rw [nthWeekday_eq_nthFrom, checkRange_bind_eq_ok, checkRange_bind_eq_ok, bind_eq_ok_iff]
  constructor
  next =>
    rintro ⟨inYear, ordinal, first, isFirst, found⟩
    obtain ⟨known, -, rfl⟩ := of_ofYearMonthDay isFirst
    dsimp only at found
    split at found
    next inMonth =>
      cases found
      generalize hd : nthFrom (on year month 1) nth weekday = d at inMonth ⊢
      obtain ⟨rfl, rfl⟩ := inMonth
      have inRange := inRange_iff.mpr known
      exact ⟨inRange, rfl, rfl, (nthFrom_eq_iff inRange (by omega)).mp hd⟩
    next => cases found
  next =>
    rintro ⟨inRange, rfl, rfl, place⟩
    have day := d.day_bounds
    have length := Civil.monthLength_bounds d.year d.month
    have month := d.month_bounds
    have ordinal : 1 ≤ nth.natAbs ∧ nth.natAbs ≤ 5 := by
      simp only [placeFromStart, placeFromEnd, monthLength] at place day
      omega
    refine ⟨by omega, by omega, on d.year d.month 1, ?_, ?_⟩
    next => exact ofYearMonthDay_of_valid (inRange_iff.mp inRange) (valid_first _ month)
    next =>
      dsimp only
      rw [(nthFrom_eq_iff inRange ordinal).mpr place, if_pos ⟨rfl, rfl⟩]

theorem isNthWeekday_iff {d : Date} {nth : Int} {weekday : Weekday} {month : Nat} :
    d.isNthWeekday nth weekday month = true ↔ nthWeekday nth weekday d.year month = .ok d := by
  unfold isNthWeekday
  split
  next found result => rw [result, beq_iff_eq, Except.ok.injEq]
  next e result => simp [result]

end Almanac.Date
