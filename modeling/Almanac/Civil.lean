set_option autoImplicit false

/-!
# The civil calendar

Year, month and day of the Gregorian calendar, reckoned in both directions without end, and the
numbering of its days in which 1970-01-01 is day 0. Year 0 is the leap year before year 1.

The days before a month are the lengths of the months before it, and the days before a year are
365 for each year from year 1 and one more for each leap year among them. The year of a day is
found by cutting its number into cycles of 400, 100, 4 and 1 years; the last day of a cycle of 400
or of 4 would open a fifth part of it and is kept in the fourth.
-/

namespace Almanac

structure Civil where
  year : Int
  month : Nat
  day : Nat
  deriving DecidableEq, Repr

namespace Civil

def isLeap (year : Int) : Bool :=
  (year % 4 == 0 && year % 100 != 0) || year % 400 == 0

def yearLength (year : Int) : Nat :=
  if isLeap year then 366 else 365

def monthLength (year : Int) (month : Nat) : Nat :=
  match month with
  | 1 | 3 | 5 | 7 | 8 | 10 | 12 => 31
  | 4 | 6 | 9 | 11 => 30
  | _ => if isLeap year then 29 else 28

def monthsLength (year : Int) : Nat → Nat
  | 0 => 0
  | count + 1 => monthsLength year count + monthLength year (count + 1)

/-- The number of days from the start of year 1 to the start of a year, negative before year 1. -/
def daysBeforeYear (year : Int) : Int :=
  365 * (year - 1) + (year - 1) / 4 - (year - 1) / 100 + (year - 1) / 400

/-- The number of days from the start of year 1 to 1970-01-01. -/
def epoch : Int := 719162

def dayOfYear (c : Civil) : Nat :=
  monthsLength c.year (c.month - 1) + c.day

def dayNumber (c : Civil) : Int :=
  daysBeforeYear c.year + c.dayOfYear - 1 - epoch

/-- The year that holds the day `days` days after the start of year 1. -/
def yearAt (days : Int) : Int :=
  let cycle := days / 146097
  let inCycle := days % 146097
  let century := min (inCycle / 36524) 3
  let inCentury := inCycle - 36524 * century
  let olympiad := inCentury / 1461
  let inOlympiad := inCentury % 1461
  400 * cycle + 100 * century + 4 * olympiad + min (inOlympiad / 365) 3 + 1

/-- Month and day of the day `days` days after the start of a month that `left` months follow. -/
def monthDayAt (year : Int) : (left : Nat) → (days : Nat) → Nat × Nat
  | 0, days => (12, days + 1)
  | left + 1, days =>
      let length := monthLength year (11 - left)
      if days < length then (11 - left, days + 1) else monthDayAt year left (days - length)

def ofDayNumber (n : Int) : Civil :=
  let days := n + epoch
  let year := yearAt days
  let monthDay := monthDayAt year 11 (days - daysBeforeYear year).toNat
  ⟨year, monthDay.1, monthDay.2⟩

def Valid (c : Civil) : Prop :=
  1 ≤ c.month ∧ c.month ≤ 12 ∧ 1 ≤ c.day ∧ c.day ≤ monthLength c.year c.month

instance (c : Civil) : Decidable c.Valid :=
  inferInstanceAs (Decidable (_ ∧ _))

theorem isLeap_iff (year : Int) :
    isLeap year = true ↔ (year % 4 = 0 ∧ year % 100 ≠ 0) ∨ year % 400 = 0 := by
  simp [isLeap]

theorem daysBeforeYear_succ (year : Int) :
    daysBeforeYear (year + 1) = daysBeforeYear year + yearLength year := by
  unfold daysBeforeYear yearLength
  split
  next leap =>
    rw [isLeap_iff] at leap
    omega
  next common =>
    rw [isLeap_iff] at common
    omega

theorem monthsLength_twelve (year : Int) : monthsLength year 12 = yearLength year := by
  simp only [monthsLength, monthLength, yearLength]
  split <;> rfl

theorem daysBeforeYear_cycles (cycle century olympiad rest : Int)
    (hc : 0 ≤ century ∧ century ≤ 3) (ho : 0 ≤ olympiad ∧ olympiad ≤ 24)
    (hr : 0 ≤ rest ∧ rest ≤ 3) :
    daysBeforeYear (400 * cycle + 100 * century + 4 * olympiad + rest + 1) =
      146097 * cycle + 36524 * century + 1461 * olympiad + 365 * rest := by
  unfold daysBeforeYear
  have four : (400 * cycle + 100 * century + 4 * olympiad + rest + 1 - 1) / 4 =
      100 * cycle + 25 * century + olympiad := by omega
  have hundred : (400 * cycle + 100 * century + 4 * olympiad + rest + 1 - 1) / 100 =
      4 * cycle + century := by omega
  have most : (400 * cycle + 100 * century + 4 * olympiad + rest + 1 - 1) / 400 = cycle := by omega
  omega

theorem yearAt_bounds (days : Int) :
    daysBeforeYear (yearAt days) ≤ days ∧ days < daysBeforeYear (yearAt days + 1) := by
  rw [daysBeforeYear_succ]
  unfold yearAt
  dsimp only
  generalize hcycle : days / 146097 = cycle
  generalize hcentury : min (days % 146097 / 36524) 3 = century
  generalize holympiad : (days % 146097 - 36524 * century) / 1461 = olympiad
  generalize hrest : min ((days % 146097 - 36524 * century) % 1461 / 365) 3 = rest
  rw [daysBeforeYear_cycles cycle century olympiad rest (by omega) (by omega) (by omega)]
  have four : (400 * cycle + 100 * century + 4 * olympiad + rest + 1) % 4 = (rest + 1) % 4 := by
    omega
  have hundred : (400 * cycle + 100 * century + 4 * olympiad + rest + 1) % 100 =
      (4 * olympiad + rest + 1) % 100 := by omega
  have most : (400 * cycle + 100 * century + 4 * olympiad + rest + 1) % 400 =
      (100 * century + 4 * olympiad + rest + 1) % 400 := by omega
  unfold yearLength
  split
  next leap => omega
  next common =>
    rw [isLeap_iff, four, hundred, most] at common
    by_cases before : days % 146097 < 146096
    next =>
      have short : days % 146097 - 36524 * century < 36524 := by omega
      by_cases lastYear : rest = 3
      next => omega
      next => omega
    next =>
      have : century = 3 ∧ olympiad = 24 ∧ rest = 3 := by omega
      omega

theorem monthLength_bounds (year : Int) (month : Nat) :
    28 ≤ monthLength year month ∧ monthLength year month ≤ 31 := by
  unfold monthLength
  split
  case h_12 => split <;> decide
  all_goals decide

theorem monthLength_mono {a b : Int} (leap : isLeap a = true → isLeap b = true) (month : Nat) :
    monthLength a month ≤ monthLength b month := by
  cases leapYear : isLeap a with
  | true => simp only [monthLength, leapYear, leap leapYear, Nat.le_refl]
  | false =>
    simp only [monthLength, leapYear, Bool.false_eq_true, if_false]
    split
    case h_12 => split <;> decide
    all_goals exact Nat.le_refl _

theorem monthDayAt_spec (year : Int) (left days : Nat) (few : left ≤ 11)
    (fits : monthsLength year (11 - left) + days < yearLength year) :
    1 ≤ (monthDayAt year left days).1 ∧ (monthDayAt year left days).1 ≤ 12 ∧
      1 ≤ (monthDayAt year left days).2 ∧
      (monthDayAt year left days).2 ≤ monthLength year (monthDayAt year left days).1 ∧
      monthsLength year ((monthDayAt year left days).1 - 1) + (monthDayAt year left days).2 =
        monthsLength year (11 - left) + days + 1 := by
  induction left generalizing days with
  | zero =>
    rw [← monthsLength_twelve] at fits
    simp only [monthDayAt, monthsLength, Nat.reduceAdd] at fits ⊢
    omega
  | succ left ih =>
    have step : 11 - left = 11 - (left + 1) + 1 := by omega
    have sum : monthsLength year (11 - left) =
        monthsLength year (11 - (left + 1)) + monthLength year (11 - left) := by
      rw [step]
      rfl
    unfold monthDayAt
    dsimp only
    split
    next inside =>
      dsimp only
      rw [show 11 - left - 1 = 11 - (left + 1) by omega]
      omega
    next after =>
      have found := ih (days - monthLength year (11 - left)) (by omega) (by omega)
      omega

theorem offset_lt (n : Int) :
    (n + epoch - daysBeforeYear (yearAt (n + epoch))).toNat < yearLength (yearAt (n + epoch)) := by
  have bounds := yearAt_bounds (n + epoch)
  rw [daysBeforeYear_succ] at bounds
  omega

theorem valid_ofDayNumber (n : Int) : (ofDayNumber n).Valid := by
  have found := monthDayAt_spec (yearAt (n + epoch)) 11 _ (by omega) (by
    simpa [monthsLength] using offset_lt n)
  exact ⟨found.1, found.2.1, found.2.2.1, found.2.2.2.1⟩

@[simp] theorem dayNumber_ofDayNumber (n : Int) : (ofDayNumber n).dayNumber = n := by
  have found := monthDayAt_spec (yearAt (n + epoch)) 11 _ (by omega) (by
    simpa [monthsLength] using offset_lt n)
  have bounds := yearAt_bounds (n + epoch)
  simp only [dayNumber, dayOfYear, ofDayNumber]
  simp only [Nat.sub_self, monthsLength] at found
  omega

end Civil

end Almanac
