import Almanac.Civil

set_option autoImplicit false

/-!
# The order of the calendar

Days are numbered in the order of year, month and day, and each number belongs to one day.
-/

namespace Almanac.Civil

def Before (a b : Civil) : Prop :=
  a.year < b.year ∨
    (a.year = b.year ∧ (a.month < b.month ∨ (a.month = b.month ∧ a.day < b.day)))

def following (c : Civil) : Civil :=
  if c.day < monthLength c.year c.month then ⟨c.year, c.month, c.day + 1⟩
  else if c.month < 12 then ⟨c.year, c.month + 1, 1⟩
  else ⟨c.year + 1, 1, 1⟩

theorem before_trichotomy (a b : Civil) : a.Before b ∨ a = b ∨ b.Before a := by
  obtain ⟨y, m, d⟩ := a
  obtain ⟨y', m', d'⟩ := b
  simp only [Before, Civil.mk.injEq]
  omega

theorem yearLength_bounds (year : Int) : 365 ≤ yearLength year ∧ yearLength year ≤ 366 := by
  unfold yearLength
  split <;> decide

theorem monthsLength_le (year : Int) {first last : Nat} (h : first ≤ last) :
    monthsLength year first ≤ monthsLength year last := by
  induction last with
  | zero => simp [Nat.le_zero.mp h]
  | succ last ih =>
    by_cases reached : first = last + 1
    next => exact Nat.le_of_eq (by rw [reached])
    next =>
      have earlier := ih (by omega)
      simp only [monthsLength]
      omega

theorem monthsLength_pred_add (year : Int) {month : Nat} (h : 1 ≤ month) :
    monthsLength year (month - 1) + monthLength year month = monthsLength year month := by
  obtain ⟨month, rfl⟩ : ∃ k, month = k + 1 := ⟨month - 1, by omega⟩
  rfl

theorem dayOfYear_bounds {c : Civil} (valid : c.Valid) :
    1 ≤ c.dayOfYear ∧ c.dayOfYear ≤ yearLength c.year := by
  obtain ⟨first, last, low, high⟩ := valid
  have upTo := monthsLength_pred_add c.year first
  have most := monthsLength_le c.year last
  rw [monthsLength_twelve] at most
  unfold dayOfYear
  omega

theorem dayNumber_eq (c : Civil) : c.dayNumber = daysBeforeYear c.year + c.dayOfYear - 719163 := by
  unfold dayNumber epoch
  omega

theorem daysBeforeYear_le {year later : Int} (h : year ≤ later) :
    daysBeforeYear year + 365 * (later - year) ≤ daysBeforeYear later := by
  unfold daysBeforeYear
  omega

theorem dayNumber_bounds {c : Civil} (valid : c.Valid) :
    daysBeforeYear c.year ≤ c.dayNumber + epoch ∧
      c.dayNumber + epoch < daysBeforeYear (c.year + 1) := by
  have inYear := dayOfYear_bounds valid
  rw [daysBeforeYear_succ]
  unfold dayNumber
  omega

theorem dayNumber_lt_of_before {a b : Civil} (ha : a.Valid) (hb : b.Valid) (h : a.Before b) :
    a.dayNumber < b.dayNumber := by
  rcases h with earlier | ⟨same, inYear⟩
  next =>
    have upper := (dayNumber_bounds ha).2
    have lower := (dayNumber_bounds hb).1
    have years := daysBeforeYear_le (show a.year + 1 ≤ b.year by omega)
    omega
  next =>
    have before : a.dayOfYear < b.dayOfYear := by
      rcases inYear with earlier | ⟨sameMonth, day⟩
      next =>
        have upTo := monthsLength_pred_add a.year ha.1
        have months := monthsLength_le a.year (show a.month ≤ b.month - 1 by omega)
        have low := hb.2.2.1
        have high := ha.2.2.2
        simp only [dayOfYear, ← same]
        omega
      next =>
        simp only [dayOfYear, ← same, ← sameMonth]
        omega
    rw [dayNumber_eq, dayNumber_eq, same]
    omega

theorem dayNumber_lt_iff {a b : Civil} (ha : a.Valid) (hb : b.Valid) :
    a.dayNumber < b.dayNumber ↔ a.Before b := by
  constructor
  next =>
    intro h
    rcases before_trichotomy a b with before | rfl | after
    next => exact before
    next => omega
    next =>
      have := dayNumber_lt_of_before hb ha after
      omega
  next => exact dayNumber_lt_of_before ha hb

theorem dayNumber_injective {a b : Civil} (ha : a.Valid) (hb : b.Valid)
    (h : a.dayNumber = b.dayNumber) : a = b := by
  rcases before_trichotomy a b with before | same | after
  next =>
    have := dayNumber_lt_of_before ha hb before
    omega
  next => exact same
  next =>
    have := dayNumber_lt_of_before hb ha after
    omega

theorem ofDayNumber_dayNumber {c : Civil} (valid : c.Valid) : ofDayNumber c.dayNumber = c :=
  dayNumber_injective (valid_ofDayNumber _) valid (dayNumber_ofDayNumber _)

theorem valid_following {c : Civil} (valid : c.Valid) : c.following.Valid := by
  have next := monthLength_bounds c.year (c.month + 1)
  have january := monthLength_bounds (c.year + 1) 1
  obtain ⟨first, last, low, high⟩ := valid
  unfold following
  split
  next => exact ⟨first, last, by simp, by simpa⟩
  next =>
    split
    next more => exact ⟨by simp, Nat.succ_le_of_lt more, by simp, by simp; omega⟩
    next => exact ⟨by simp, by simp, by simp, by simp; omega⟩

theorem dayNumber_following {c : Civil} (valid : c.Valid) :
    c.following.dayNumber = c.dayNumber + 1 := by
  obtain ⟨first, last, low, high⟩ := valid
  have upTo := monthsLength_pred_add c.year first
  unfold following
  split
  next => simp only [dayNumber_eq, dayOfYear]; omega
  next monthEnd =>
    split
    next => simp only [dayNumber_eq, dayOfYear, Nat.add_sub_cancel]; omega
    next =>
      have december : c.month = 12 := by omega
      rw [december, monthsLength_twelve] at upTo
      simp only [dayNumber_eq, dayOfYear, daysBeforeYear_succ, december, Nat.sub_self,
        monthsLength] at *
      omega

theorem ofDayNumber_succ (n : Int) : ofDayNumber (n + 1) = (ofDayNumber n).following := by
  have valid := valid_ofDayNumber n
  rw [← ofDayNumber_dayNumber (valid_following valid), dayNumber_following valid,
    dayNumber_ofDayNumber]

end Almanac.Civil
