import Almanac.Proofs.Date.Checked
import Almanac.Proofs.Date.Word
import Mathlib.Algebra.BigOperators.Intervals

set_option autoImplicit false

/-!
# Days of the year

The number of a day in its year, which is reckoned from the day numbers, is what the lengths of the
months before it and the day of the month add up to. A year from 1 to 9999 and a number of one of its
days name a date, and no other year and number do.
-/

namespace Almanac

theorem Civil.monthsLength_eq_sum (year : Int) (count : Nat) :
    monthsLength year count = ∑ month ∈ Finset.Ico 1 (count + 1), monthLength year month := by
  induction count with
  | zero => rfl
  | succ count ih => rw [monthsLength, ih, Finset.sum_Ico_succ_top (Nat.le_add_left 1 count)]

namespace Word

def short? (n : Int) : Option Nat :=
  if 0 ≤ n ∧ n < 65536 then some n.toNat else none

def dayOfYear? (d : Date) : Option Nat := do
  let c ← civil? d
  let newYear ← on? c.year 1 1
  short? (← add? (← sub? d.serial newYear.serial) 1)

def ofYearDay? (year : Int) (day : Nat) : Option (Except Error Date) := do
  let length := if ← isLeap? year then 366 else 365
  if 1 ≤ day ∧ day ≤ length then
    if 1 ≤ year ∧ year ≤ 9999 then
      return .ok (plus (← on? year 1 1) (← sub? day 1))
    else return .error (.invalidDate (.year year))
  else return .error (.outOfRange .dayOfYear day 1 length)

end Word

namespace Date

variable {d : Date} {year : Int} {day : Nat}

theorem dayOfYear_civil (d : Date) : d.dayOfYear = d.civil.dayOfYear := by
  have ordinal := d.dayOfYear_eq
  have serial := congrArg Date.serial d.ofCivil_civil
  have newYear := newYear_serial d.year
  rw [ofCivil, Civil.dayNumber_eq] at serial
  rw [year] at ordinal newYear
  simp only at serial
  omega

theorem dayOfYear_eq_sum (d : Date) :
    d.dayOfYear = (∑ month ∈ Finset.Ico 1 d.month, Civil.monthLength d.year month) + d.day := by
  have months := d.month_bounds
  have upTo : d.civil.month - 1 + 1 = d.month := Nat.sub_add_cancel months.1
  rw [dayOfYear_civil, Civil.dayOfYear, Civil.monthsLength_eq_sum, upTo]
  rfl

theorem ofYearDay_of_wrong_day (wrong : ¬(1 ≤ day ∧ day ≤ Civil.yearLength year)) :
    ofYearDay year day = .error (.outOfRange .dayOfYear day 1 (Civil.yearLength year)) := by
  have outside : ¬((1 : Int) ≤ day ∧ (day : Int) ≤ Civil.yearLength year) := by omega
  rw [ofYearDay, checkRange, if_neg outside]
  rfl

theorem ofYearDay_of_day (inYear : 1 ≤ day ∧ day ≤ Civil.yearLength year) :
    ofYearDay year day = (ofYearMonthDay year 1 1).map (·.plus ((day : Int) - 1)) := by
  have inside : (1 : Int) ≤ day ∧ (day : Int) ≤ Civil.yearLength year := by omega
  rw [ofYearDay, checkRange_eq_ok.mpr inside]
  cases ofYearMonthDay year 1 1 <;> rfl

theorem ofYearDay_of_wrong_year (inYear : 1 ≤ day ∧ day ≤ Civil.yearLength year)
    (wrong : ¬(1 ≤ year ∧ year ≤ 9999)) :
    ofYearDay year day = .error (.invalidDate (.year year)) := by
  rw [ofYearDay_of_day inYear, ofYearMonthDay, if_pos wrong]
  rfl

theorem ofYearDay_of_known (known : 1 ≤ year ∧ year ≤ 9999)
    (inYear : 1 ≤ day ∧ day ≤ Civil.yearLength year) :
    ofYearDay year day = .ok ((on year 1 1).plus ((day : Int) - 1)) := by
  have first := ofYearMonthDay_of_valid known (valid_first year (show 1 ≤ 1 ∧ 1 ≤ 12 by decide))
  rw [ofYearDay_of_day inYear, first]
  rfl

theorem exists_ofYearDay_iff :
    (∃ d, ofYearDay year day = .ok d) ↔
      (1 ≤ year ∧ year ≤ 9999) ∧ 1 ≤ day ∧ day ≤ Civil.yearLength year := by
  constructor
  next =>
    rintro ⟨d, ok⟩
    obtain ⟨inRange, rfl, rfl⟩ := ofYearDay_eq_ok.mp ok
    exact ⟨inRange_iff.mp inRange, d.dayOfYear_bounds⟩
  next => exact fun ⟨known, inYear⟩ => ⟨_, ofYearDay_of_known known inYear⟩

end Date

namespace Word

variable {d : Date}

theorem short?_eq {n : Int} (low : 0 ≤ n) (high : n < 65536) : short? n = some n.toNat :=
  if_pos ⟨low, high⟩

theorem dayOfYear?_eq (inYears : d.Representable) : dayOfYear? d = some d.dayOfYear := by
  have years := inYears.year_bounds
  have serial := inYears.serial_bounds
  have ordinal := d.dayOfYear_eq
  have bounds := d.dayOfYear_bounds
  have length := Civil.yearLength_bounds d.year
  have newYear := on?_eq (Date.valid_first d.year (show 1 ≤ 1 ∧ 1 ≤ 12 by decide)) (by omega)
  simp (disch := omega) only [dayOfYear?, civil?_eq inYears, newYear, some_bind_eq, sub?_eq, add?_eq,
    short?_eq]
  rfl

theorem ofYearDay?_eq (year : Int) (day : Nat) :
    ofYearDay? year day = some (Date.ofYearDay year day) := by
  have bounds := Civil.yearLength_bounds year
  rw [ofYearDay?, isLeap?_eq, some_bind_eq]
  change (if 1 ≤ day ∧ day ≤ Civil.yearLength year then _ else _) = _
  split
  next inYear =>
    split
    next known =>
      have first := on?_eq (Date.valid_first year (show 1 ≤ 1 ∧ 1 ≤ 12 by decide)) (by omega)
      simp (disch := omega) only [first, some_bind_eq, sub?_eq, plus_eq,
        Date.ofYearDay_of_known known inYear]
      rfl
    next wrong =>
      rw [Date.ofYearDay_of_wrong_year inYear wrong]
      rfl
  next wrong =>
    rw [Date.ofYearDay_of_wrong_day wrong]
    rfl

end Word

namespace Date

/-- The number of a day in its year is the sum of the lengths of the months before its own and of the
day of the month, and it fits 16 bits. From year and number the date is found again, other years than
1 to 9999 are refused, and before that other numbers than those of the year's days. -/
theorem dayOfYear_coordinates :
    (∀ d : Date, d.Inland →
      d.dayOfYear = (∑ month ∈ Finset.Ico 1 d.month, Civil.monthLength d.year month) + d.day ∧
      (1 ≤ d.dayOfYear ∧ d.dayOfYear ≤ Civil.yearLength d.year) ∧
      Word.dayOfYear? d = some d.dayOfYear ∧
      ∀ month, Word.monthLength? d.year month = some (Civil.monthLength d.year month)) ∧
    (∀ d : Date, d.InRange → ofYearDay d.year d.dayOfYear = .ok d) ∧
    ∀ (year : Int) (day : Nat),
      (∀ d, ofYearDay year day = .ok d → d.year = year ∧ d.dayOfYear = day) ∧
      ((∃ d, ofYearDay year day = .ok d) ↔
        (1 ≤ year ∧ year ≤ 9999) ∧ 1 ≤ day ∧ day ≤ Civil.yearLength year) ∧
      (¬(1 ≤ day ∧ day ≤ Civil.yearLength year) →
        ofYearDay year day = .error (.outOfRange .dayOfYear day 1 (Civil.yearLength year))) ∧
      ((1 ≤ day ∧ day ≤ Civil.yearLength year) → ¬(1 ≤ year ∧ year ≤ 9999) →
        ofYearDay year day = .error (.invalidDate (.year year))) ∧
      Word.ofYearDay? year day = some (ofYearDay year day) := by
  refine ⟨fun d inland => ?_, fun d inRange => ?_, fun year day => ?_⟩
  next =>
    have inYears : d.Representable := by
      unfold Inland at inland
      rw [representable_iff]
      omega
    exact ⟨d.dayOfYear_eq_sum, d.dayOfYear_bounds, Word.dayOfYear?_eq inYears,
      Word.monthLength?_eq d.year⟩
  next => exact ofYearDay_eq_ok.mpr ⟨inRange, rfl, rfl⟩
  next =>
    exact ⟨fun d ok => (ofYearDay_eq_ok.mp ok).2, exists_ofYearDay_iff, ofYearDay_of_wrong_day,
      ofYearDay_of_wrong_year, Word.ofYearDay?_eq year day⟩

-- The last day of a leap year before year 1, and numbers that are the last of one year and too high
-- for another.
theorem dayOfYear_coordinates_last_days :
    (on (-400) 12 31).Inland ∧ (on (-400) 12 31).dayOfYear = 366 ∧
      Word.dayOfYear? (on (-400) 12 31) = some 366 ∧
      (on 2024 12 31).InRange ∧ ofYearDay 2024 366 = .ok (on 2024 12 31) ∧
      ofYearDay 1900 366 = .error (.outOfRange .dayOfYear 366 1 365) ∧
      ofYearDay 0 366 = .error (.invalidDate (.year 0)) := by
  obtain ⟨reckoned, found, outcomes⟩ := dayOfYear_coordinates
  have inland : (on (-400) 12 31).Inland := by decide
  have inRange : (on 2024 12 31).InRange := by decide
  have number : (on (-400) 12 31).dayOfYear = 366 := by decide
  obtain ⟨-, -, words, -⟩ := reckoned _ inland
  obtain ⟨-, -, wrongDay, -, -⟩ := outcomes 1900 366
  obtain ⟨-, -, -, wrongYear, -⟩ := outcomes 0 366
  rw [number] at words
  exact ⟨inland, number, words, inRange, found _ inRange, wrongDay (by decide),
    wrongYear (by decide) (by decide)⟩

end Date

end Almanac
