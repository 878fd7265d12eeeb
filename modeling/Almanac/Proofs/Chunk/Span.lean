import Almanac.Chunk
import Almanac.Proofs.Week

set_option autoImplicit false

/-!
# The periods of a kind

A date lies in a period of each kind, and every day of that period has it as its own.
-/

namespace Almanac

namespace Chunk

theorem isBeginningOf_iff {chunk : Chunk} {d : Date} {settings : Settings} :
    chunk.isBeginningOf d settings = true ↔ chunk.beginningOf d settings = d :=
  beq_iff_eq.trans eq_comm

theorem firstMonth_le_iff {size month other : Nat} (positive : 0 < size) (h : 1 ≤ other) :
    firstMonth size month ≤ other ∧ other ≤ lastMonth size month ↔
      Month.spanOf size other = Month.spanOf size month := by
  have place : (other - 1) / size = (month - 1) / size ↔ _ := Nat.div_eq_iff positive
  simp only [firstMonth, lastMonth, Month.spanOf, Nat.add_right_cancel_iff, place]
  have := positive
  omega

theorem firstMonth_bounds {size month : Nat} (positive : 0 < size) (divides : size ∣ 12)
    (h : 1 ≤ month ∧ month ≤ 12) :
    1 ≤ firstMonth size month ∧ firstMonth size month ≤ lastMonth size month ∧
      lastMonth size month ≤ 12 := by
  obtain ⟨count, whole⟩ := divides
  have place : (month - 1) / size < count := by
    rw [Nat.div_lt_iff_lt_mul positive, Nat.mul_comm, ← whole]
    omega
  have last := Nat.mul_le_mul_right size (show (month - 1) / size + 1 ≤ count by omega)
  rw [Nat.add_mul, Nat.mul_comm count, ← whole] at last
  unfold firstMonth lastMonth
  omega

theorem firstMonth_congr {size month other : Nat}
    (same : Month.spanOf size other = Month.spanOf size month) :
    firstMonth size other = firstMonth size month ∧
      lastMonth size other = lastMonth size month := by
  simp only [Month.spanOf, Nat.add_right_cancel_iff] at same
  simp only [firstMonth, lastMonth, same, and_self]

theorem mem_monthSpan_iff {size month : Nat} {year : Int} {x : Date} (positive : 0 < size)
    (divides : size ∣ 12) (h : 1 ≤ month ∧ month ≤ 12) :
    Date.on year (firstMonth size month) 1 ≤ x ∧
        x ≤ (Date.on year (lastMonth size month) 1).endOfMonth ↔
      x.year = year ∧ Month.spanOf size x.month = Month.spanOf size month := by
  have bounds := @firstMonth_bounds size month positive divides h
  have last : 1 ≤ lastMonth size month ∧ lastMonth size month ≤ 12 := by omega
  have inYear := x.month_bounds
  have inMonth := x.day_bounds
  rw [← firstMonth_le_iff positive inYear.1, Date.endOfMonth_on (Date.valid_first year last),
    Date.on_le_iff (Date.valid_first year (by omega)), Date.le_on_iff (Date.valid_last year last)]
  by_cases same : x.year = year
  next =>
    subst same
    -- Only the last month of the span could cut a day off.
    have fits : x.month = lastMonth size month →
        x.day ≤ Civil.monthLength x.year (lastMonth size month) := by
      intro atLast
      rw [← atLast]
      exact inMonth.2
    omega
  next => omega

def months? : Chunk → Option Nat
  | .year => some 12
  | .half => some 6
  | .quarter => some 3
  | .bimonth => some 2
  | .month => some 1
  | .semimonth | .biweek | .week | .day => none

/-- The period of a kind that a date lies in: it holds the date, and is that of all its days. -/
structure IsSpan (chunk : Chunk) (settings : Settings) (d : Date) : Prop where
  first_le : chunk.beginningOf d settings ≤ d
  le_last : d ≤ chunk.endOf d settings
  same : ∀ x, chunk.beginningOf d settings ≤ x → x ≤ chunk.endOf d settings →
    chunk.beginningOf x settings = chunk.beginningOf d settings ∧
      chunk.endOf x settings = chunk.endOf d settings
  short : d.serial - (chunk.beginningOf d settings).serial < 366 ∧
    (chunk.endOf d settings).serial - d.serial < 366

section

variable {settings : Settings} {d : Date}

section months

variable {chunk : Chunk} {size : Nat} (whole : chunk.months? = some size)

include whole

theorem months_dvd : size ∣ 12 := by
  cases chunk with
  | year | half | quarter | bimonth | month => cases whole; decide
  | semimonth | biweek | week | day => cases whole

theorem months_pos : 0 < size :=
  Nat.pos_of_dvd_of_pos (months_dvd whole) (by decide)

theorem months_le : size ≤ 12 :=
  Nat.le_of_dvd (by decide) (months_dvd whole)

theorem beginningOf_months (d : Date) (settings : Settings) :
    chunk.beginningOf d settings = Date.on d.year (firstMonth size d.month) 1 := by
  cases chunk with
  | year | half | quarter | bimonth | month => cases whole; rfl
  | semimonth | biweek | week | day => cases whole

theorem endOf_months (d : Date) (settings : Settings) :
    chunk.endOf d settings = (Date.on d.year (lastMonth size d.month) 1).endOfMonth := by
  cases chunk with
  | year | half | quarter | bimonth | month => cases whole; rfl
  | semimonth | biweek | week | day => cases whole

theorem mem_months_iff {x : Date} :
    chunk.beginningOf d settings ≤ x ∧ x ≤ chunk.endOf d settings ↔
      x.year = d.year ∧ Month.spanOf size x.month = Month.spanOf size d.month := by
  rw [beginningOf_months whole, endOf_months whole]
  exact mem_monthSpan_iff (months_pos whole) (months_dvd whole) d.month_bounds

theorem isSpan_of_months : chunk.IsSpan settings d := by
  have own := (@mem_months_iff settings d chunk size whole d).mpr ⟨rfl, rfl⟩
  have bounds := firstMonth_bounds (months_pos whole) (months_dvd whole) d.month_bounds
  have last : 1 ≤ lastMonth size d.month ∧ lastMonth size d.month ≤ 12 := by omega
  refine ⟨own.1, own.2, ?_, ?_⟩
  next =>
    intro x low high
    obtain ⟨year, span⟩ := (mem_months_iff whole).mp ⟨low, high⟩
    have months := firstMonth_congr span
    rw [beginningOf_months whole, beginningOf_months whole, endOf_months whole, endOf_months whole,
      year, months.1, months.2]
    exact ⟨rfl, rfl⟩
  next =>
    rw [beginningOf_months whole, endOf_months whole,
      Date.endOfMonth_on (Date.valid_first d.year last)]
    constructor
    next => exact Date.near_of_year_eq (Date.year_on (Date.valid_first d.year (by omega))).symm
    next => exact Date.near_of_year_eq (Date.year_on (Date.valid_last d.year last))

end months

theorem mem_semimonth_iff {x : Date} :
    semimonth.beginningOf d settings ≤ x ∧ x ≤ semimonth.endOf d settings ↔
      x.year = d.year ∧ x.month = d.month ∧ (x.day ≤ 15 ↔ d.day ≤ 15) := by
  have middle (day : Nat) (early : 1 ≤ day ∧ day ≤ 28) :=
    Date.valid_middle d.year d.month_bounds early
  have last := Date.valid_last d.year d.month_bounds
  have length := Civil.monthLength_bounds d.year d.month
  have inMonth := x.day_bounds
  by_cases early : d.day ≤ 15
  next =>
    simp only [beginningOf, endOf, if_pos early]
    rw [Date.on_le_iff (middle 1 (by decide)), Date.le_on_iff (middle 15 (by decide))]
    omega
  next =>
    simp only [beginningOf, endOf, if_neg early, Date.endOfMonth, Date.monthLength]
    rw [Date.on_le_iff (middle 16 (by decide)), Date.le_on_iff last]
    by_cases same : x.year = d.year ∧ x.month = d.month
    next =>
      rw [Date.monthLength, same.1, same.2] at inMonth
      omega
    next => omega

theorem isSpan_semimonth : semimonth.IsSpan settings d := by
  have own := (@mem_semimonth_iff settings d d).mpr ⟨rfl, rfl, Iff.rfl⟩
  refine ⟨own.1, own.2, ?_, ?_⟩
  next =>
    intro x low high
    obtain ⟨year, month, half⟩ := mem_semimonth_iff.mp ⟨low, high⟩
    simp only [beginningOf, endOf, Date.endOfMonth, Date.monthLength, year, month, half, and_self]
  next =>
    have middle (day : Nat) (early : 1 ≤ day ∧ day ≤ 28) :=
      Date.year_on (Date.valid_middle d.year d.month_bounds early)
    have last := Date.year_on (Date.valid_last d.year d.month_bounds)
    simp only [beginningOf, endOf, Date.endOfMonth, Date.monthLength]
    constructor
    next =>
      apply Date.near_of_year_eq
      split
      next => exact (middle 1 (by decide)).symm
      next => exact (middle 16 (by decide)).symm
    next =>
      apply Date.near_of_year_eq
      split
      next => exact middle 15 (by decide)
      next => exact last

theorem isSpan_week (room : d.HasRoom 400) : week.IsSpan settings d := by
  have bounds := d.daysIntoWeek_bounds settings
  have start := @Date.startOfWeek_serial d settings (room.mono (by decide))
  have last := @Date.endOfWeek_serial d settings (room.mono (by decide))
  constructor <;> simp only [beginningOf, endOf, Date.le_def, start, last]
  next => omega
  next => omega
  next =>
    intro x low high
    -- Both days lie in the seven days from the start of one week.
    have sameWeek : x.serial - x.daysIntoWeek settings = d.serial - d.daysIntoWeek settings := by
      unfold Date.daysIntoWeek at *
      omega
    constructor
    next =>
      apply Date.ext
      rw [start, Date.startOfWeek_serial (room.near (by omega)), sameWeek]
    next =>
      apply Date.ext
      rw [last, Date.endOfWeek_serial (room.near (by omega)), sameWeek]
  next => omega

theorem isSpan_day : day.IsSpan settings d := by
  constructor <;> simp only [beginningOf, endOf, Date.le_def]
  next => exact Int.le_refl _
  next => exact Int.le_refl _
  next =>
    intro x low high
    have same : x = d := Date.ext (by omega)
    exact ⟨same, same⟩
  next => omega

theorem beginningOf_biweek (room : d.HasRoom 900) :
    (biweek.beginningOf d settings).serial =
      Date.weekYearStart settings (d.weekYear settings) +
        (d.serial - Date.weekYearStart settings (d.weekYear settings)) / 14 * 14 := by
  have bounds := d.daysIntoWeek_bounds settings
  have own := @Date.weekYear_spec d settings (room.mono (by decide))
  have number := @Date.weekNumber_eq d settings (room.mono (by decide))
  have into := Date.daysIntoWeek_eq d settings (d.weekYear settings)
  have start := @Date.startOfWeek_serial d settings (room.mono (by decide))
  have startRoom : (d.startOfWeek settings).HasRoom 7 := room.near (by omega)
  simp only [beginningOf]
  split
  next odd => rw [start]; omega
  next even => rw [startRoom.minus_serial (by omega), start]; omega

theorem endOf_biweek (room : d.HasRoom 900) :
    (biweek.endOf d settings).serial =
      min (Date.weekYearStart settings (d.weekYear settings) +
        (d.serial - Date.weekYearStart settings (d.weekYear settings)) / 14 * 14 + 13)
        (Date.weekYearStart settings (d.weekYear settings + 1) - 1) := by
  have own := @Date.weekYear_spec d settings (room.mono (by decide))
  have number := @Date.weekNumber_eq d settings (room.mono (by decide))
  have into := Date.daysIntoWeek_eq d settings (d.weekYear settings)
  have weeks := Date.weekYearStart_succ settings (d.weekYear settings)
  have later : (d.plus 7).serial = d.serial + 7 := room.plus_serial (by decide)
  have laterNumber := @Date.weekNumber_later d settings room
  -- The week after decides whether the biweek has a second one.
  have laterInto : (d.plus 7).daysIntoWeek settings = d.daysIntoWeek settings := by
    unfold Date.daysIntoWeek
    omega
  have last := @Date.endOfWeek_serial d settings (room.mono (by decide))
  have laterLast := @Date.endOfWeek_serial (d.plus 7) settings (room.near (by omega))
  simp only [endOf]
  split
  next oneWeek =>
    rw [last]
    split at laterNumber <;> omega
  next twoWeeks =>
    rw [laterLast, later, laterInto]
    split at laterNumber <;> omega

theorem isSpan_biweek (room : d.HasRoom 1300) : biweek.IsSpan settings d := by
  have own := @Date.weekYear_spec d settings (room.mono (by decide))
  have weeks := Date.weekYearStart_succ settings (d.weekYear settings)
  have first := @beginningOf_biweek settings d (room.mono (by decide))
  have last := @endOf_biweek settings d (room.mono (by decide))
  constructor
  next => rw [Date.le_def]; omega
  next => rw [Date.le_def]; omega
  next =>
    intro x low high
    rw [Date.le_def] at low high
    have xRoom : x.HasRoom 900 := room.near (by omega)
    -- Biweeks are counted from the start of the weeks of a year, so a day between the ends of one
    -- belongs to the year that the biweek is counted in.
    have year : x.weekYear settings = d.weekYear settings :=
      Date.weekYear_eq (xRoom.mono (by decide)) (by omega)
    have xFirst := @beginningOf_biweek settings x xRoom
    have xLast := @endOf_biweek settings x xRoom
    rw [year] at xFirst xLast
    constructor
    next => apply Date.ext; omega
    next => apply Date.ext; omega
  next => omega

theorem IsSpan.hasRoom {chunk : Chunk} {days : Int} (span : chunk.IsSpan settings d)
    (room : d.HasRoom (days + 366)) :
    (chunk.beginningOf d settings).HasRoom days ∧ (chunk.endOf d settings).HasRoom days := by
  have first := span.first_le
  have last := span.le_last
  have short := span.short
  rw [Date.le_def] at first last
  exact ⟨room.near (by omega), room.near (by omega)⟩

theorem isSpan (chunk : Chunk) (settings : Settings) {d : Date} (room : d.HasRoom 1300) :
    chunk.IsSpan settings d := by
  cases chunk with
  | year | half | quarter | bimonth | month => exact isSpan_of_months rfl
  | semimonth => exact isSpan_semimonth
  | biweek => exact isSpan_biweek room
  | week => exact isSpan_week (room.mono (by decide))
  | day => exact isSpan_day

end

end Chunk

end Almanac
