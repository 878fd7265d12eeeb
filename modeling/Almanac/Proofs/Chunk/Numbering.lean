import Almanac.Proofs.Chunk.Span
import Almanac.Proofs.Date.Shift

set_option autoImplicit false

/-!
# Numbers of periods

The periods of a kind other than biweeks are numbered in their order. All days of a period have its
number, the number goes up by one from a period to the next, and a move by some periods adds to it.
-/

namespace Almanac.Chunk

/-- A numbering of the periods of a kind through their days. -/
structure Numbers (chunk : Chunk) (settings : Settings) (number : Date → Int) : Prop where
  mem_iff : ∀ {d x : Date}, d.HasRoom 1300 →
    (chunk.beginningOf d settings ≤ x ∧ x ≤ chunk.endOf d settings ↔ number x = number d)
  next : ∀ {a b : Date}, b.serial = a.serial + 1 →
    number b = number a ∨ number b = number a + 1
  advance : ∀ {d : Date} {n : Int}, d.InRange → -400000 ≤ n ∧ n ≤ 400000 →
    (chunk.advance d n).Inland ∧ number (chunk.advance d n) = number d + n

variable {chunk : Chunk} {settings : Settings} {d x : Date} {n : Int}

theorem monthIndex_ediv {size count : Nat} (whole : 12 = size * count) (d : Date) :
    d.monthIndex / size = count * d.year + (Month.spanOf size d.month - 1 : Nat) := by
  have positive : (size : Int) ≠ 0 := by
    rintro zero
    rw [Int.natCast_eq_zero.mp zero, Nat.zero_mul] at whole
    omega
  have months := d.month_bounds
  have place : (d.month : Int) - 1 = (d.month - 1 : Nat) := by omega
  have years : d.monthIndex = (d.month - 1 : Nat) + size * (count * d.year) := by
    rw [Date.monthIndex, place, ← Int.mul_assoc, ← Int.natCast_mul, ← whole, Int.add_comm]
    rfl
  rw [years, Int.add_mul_ediv_left _ _ positive, Month.spanOf, Nat.add_sub_cancel,
    Int.natCast_ediv, Int.add_comm]

structure InYear (number : Date → Int) (index : Date → Nat) (count : Nat) : Prop where
  bounds : ∀ d : Date, 1 ≤ index d ∧ index d ≤ count
  number_eq : ∀ d : Date, number d + 1 = count * d.year + index d

theorem InYear.year_eq {number : Date → Int} {index : Date → Nat} {count : Nat}
    (inYear : InYear number index count) (d : Date) : number d / count = d.year := by
  have bounds := inYear.bounds d
  have placed := inYear.number_eq d
  have positive : (0 : Int) < count := by omega
  exact ((Int.ediv_emod_unique positive).mpr
    (show (index d : Int) - 1 + count * d.year = number d ∧ _ by omega)).1

theorem InYear.number_eq_iff {number : Date → Int} {index : Date → Nat} {count : Nat}
    (inYear : InYear number index count) :
    number x = number d ↔ x.year = d.year ∧ index x = index d := by
  have first := inYear.number_eq x
  have second := inYear.number_eq d
  constructor
  next =>
    intro same
    have sameYear : x.year = d.year := by rw [← inYear.year_eq, ← inYear.year_eq, same]
    rw [sameYear] at first
    exact ⟨sameYear, by omega⟩
  next =>
    rintro ⟨sameYear, sameIndex⟩
    rw [sameYear, sameIndex] at first
    omega

theorem inYear_months {size count : Nat} (whole : 12 = size * count) :
    InYear (fun d => d.monthIndex / size) (fun d => Month.spanOf size d.month) count where
  bounds d := by
    have months := d.month_bounds
    have positive : 0 < size := Nat.pos_of_dvd_of_pos ⟨count, whole⟩ (by decide)
    have place : (d.month - 1) / size < count := by
      rw [Nat.div_lt_iff_lt_mul positive, Nat.mul_comm, ← whole]
      omega
    exact ⟨Nat.le_add_left 1 _, place⟩
  number_eq d := by
    have counted : 1 ≤ Month.spanOf size d.month := Nat.le_add_left 1 _
    rw [monthIndex_ediv whole]
    omega

theorem monthIndex_ediv_eq_iff {size : Nat} (divides : size ∣ 12) :
    x.monthIndex / size = d.monthIndex / size ↔
      x.year = d.year ∧ Month.spanOf size x.month = Month.spanOf size d.month := by
  obtain ⟨count, whole⟩ := divides
  exact (inYear_months whole).number_eq_iff

theorem ediv_succ {size i : Int} (positive : 0 < size) :
    (i + 1) / size = i / size ∨ (i + 1) / size = i / size + 1 := by
  have low : i / size ≤ (i + 1) / size := Int.ediv_le_ediv positive (by omega)
  have high : (i + 1) / size ≤ (i + 1 * size) / size := Int.ediv_le_ediv positive (by omega)
  rw [Int.add_mul_ediv_right _ _ (Int.ne_of_gt positive)] at high
  omega

theorem mul_bounds {size : Nat} (short : size ≤ 14) (few : -400000 ≤ n ∧ n ≤ 400000) :
    -5600000 ≤ size * n ∧ size * n ≤ 5600000 := by
  have low := Int.mul_le_mul_of_nonneg_left few.1 (Int.natCast_nonneg size)
  have high := Int.mul_le_mul_of_nonneg_left few.2 (Int.natCast_nonneg size)
  omega

theorem advance_zero (chunk : Chunk) (d : Date) : chunk.advance d 0 = d :=
  if_pos rfl

theorem advance_eq_of_still {move : Int → Date} (still : move 0 = d)
    (moves : ∀ n : Int, n ≠ 0 → chunk.advance d n = move n) (n : Int) :
    chunk.advance d n = move n := by
  by_cases moved : n = 0
  next => rw [moved, advance_zero, still]
  next => exact moves n moved

theorem Numbers.of_moves {number : Date → Int}
    (mem_iff : ∀ {d x : Date}, d.HasRoom 1300 →
      (chunk.beginningOf d settings ≤ x ∧ x ≤ chunk.endOf d settings ↔ number x = number d))
    (next : ∀ {a b : Date}, b.serial = a.serial + 1 →
      number b = number a ∨ number b = number a + 1)
    (move : ∀ {d : Date} {n : Int}, d.InRange → -400000 ≤ n ∧ n ≤ 400000 → n ≠ 0 →
      (chunk.advance d n).Inland ∧ number (chunk.advance d n) = number d + n) :
    chunk.Numbers settings number := by
  refine ⟨mem_iff, next, fun {d n} inRange few => ?_⟩
  by_cases still : n = 0
  next =>
    rw [still, advance_zero, Int.add_zero]
    exact ⟨inRange.inland, rfl⟩
  next => exact move inRange few still

section months

variable {size : Nat} (whole : chunk.months? = some size)

include whole

theorem advance_months (d : Date) (moved : n ≠ 0) :
    chunk.advance d n = d.shiftMonths (size * n) := by
  cases chunk with
  | year | half | quarter | bimonth => cases whole; exact if_neg moved
  | month =>
    cases whole
    rw [Int.natCast_one, Int.one_mul]
    exact if_neg moved
  | semimonth | biweek | week | day => cases whole

theorem months_bounds (few : -400000 ≤ n ∧ n ≤ 400000) :
    -5600000 ≤ size * n ∧ size * n ≤ 5600000 :=
  mul_bounds (Nat.le_trans (months_le whole) (by decide)) few

theorem numbers_months : chunk.Numbers settings fun d => d.monthIndex / size := by
  have positive := months_pos whole
  apply Numbers.of_moves
  next =>
    intro d x _
    rw [mem_months_iff whole, monthIndex_ediv_eq_iff (months_dvd whole)]
  next =>
    intro a b next
    rcases Date.monthIndex_following next with ⟨same, -⟩ | ⟨later, -⟩
    next => exact .inl (by simp only [same])
    next =>
      rw [later]
      exact ediv_succ (by omega)
  next =>
    intro d n inRange few moved
    have months := inRange.monthIndex_bounds
    have moves := months_bounds whole few
    have index := @Date.monthIndex_shiftMonths d (size * n) (by omega)
    rw [advance_months whole d moved]
    refine ⟨Date.inland_of_monthIndex (by omega), ?_⟩
    rw [index, Int.add_mul_ediv_left _ _ (by omega)]

end months

section semimonth

def halfMonthIndex (d : Date) : Int :=
  2 * d.monthIndex + if d.day ≤ 15 then 0 else 1

theorem halfMonthIndex_eq_iff : halfMonthIndex x = halfMonthIndex d ↔
    x.monthIndex = d.monthIndex ∧ (x.day ≤ 15 ↔ d.day ≤ 15) := by
  unfold halfMonthIndex
  omega

theorem halfMonthIndex_shiftMonths
    (within : -12000000 ≤ d.monthIndex + n ∧ d.monthIndex + n ≤ 12000011) :
    halfMonthIndex (d.shiftMonths n) = halfMonthIndex d + 2 * n := by
  rw [halfMonthIndex, halfMonthIndex, Date.monthIndex_shiftMonths within]
  simp only [Date.firstHalf_shiftMonths]
  omega

-- The day of a month of some length that is like another in the other half, or the last there.
def likeDay (day length : Nat) : Nat :=
  if day ≤ 15 then min (day + 15) length else min (day - 15) 15

theorem day_halfMonthOn (d : Date) :
    (halfMonthOn d).day = likeDay d.day (halfMonthOn d).monthLength := by
  have inMonth := d.day_bounds
  have length := d.monthLength_bounds
  unfold halfMonthOn
  split
  next early =>
    rw [Date.day_on (d.valid_inMonth (by omega)), d.monthLength_inMonth (by omega), likeDay,
      if_pos early]
  next late =>
    have following := (d.startOfMonth.shiftMonths 1).monthLength_bounds
    rw [Date.day_on (Date.valid_inMonth _ (by omega)), likeDay, if_neg late]

theorem day_halfMonthBack (d : Date) :
    (halfMonthBack d).day = likeDay d.day (halfMonthBack d).monthLength := by
  have inMonth := d.day_bounds
  have length := d.monthLength_bounds
  unfold halfMonthBack
  split
  next early =>
    have preceding := (d.startOfMonth.shiftMonths (-1)).monthLength_bounds
    dsimp only
    rw [Date.day_on (Date.valid_inMonth _ (by omega)), Date.monthLength_inMonth _ (by omega),
      likeDay, if_pos early]
  next late => rw [Date.day_on (d.valid_inMonth (by omega)), likeDay, if_neg late]

theorem monthIndex_halfMonthOn (d : Date) :
    (halfMonthOn d).monthIndex =
      if d.day ≤ 15 then d.monthIndex else max (-12000000) (min (d.monthIndex + 1) 12000011) := by
  have inMonth := d.day_bounds
  have length := d.monthLength_bounds
  unfold halfMonthOn
  split
  next => exact Date.monthIndex_on (d.valid_inMonth (by omega))
  next =>
    have following := (d.startOfMonth.shiftMonths 1).monthLength_bounds
    rw [← d.monthIndex_startOfMonth, ← Date.monthIndex_shiftMonths_cut]
    exact Date.monthIndex_on (Date.valid_inMonth _ (by omega))

theorem monthIndex_halfMonthBack (d : Date) :
    (halfMonthBack d).monthIndex =
      if d.day ≤ 15 then max (-12000000) (min (d.monthIndex + -1) 12000011) else d.monthIndex := by
  have inMonth := d.day_bounds
  have length := d.monthLength_bounds
  unfold halfMonthBack
  split
  next =>
    have preceding := (d.startOfMonth.shiftMonths (-1)).monthLength_bounds
    rw [← d.monthIndex_startOfMonth, ← Date.monthIndex_shiftMonths_cut]
    exact Date.monthIndex_on (Date.valid_inMonth _ (by omega))
  next => exact Date.monthIndex_on (d.valid_inMonth (by omega))

theorem halfMonthIndex_halfMonthOn (room : -12000001 ≤ d.monthIndex ∧ d.monthIndex < 12000011) :
    halfMonthIndex (halfMonthOn d) = halfMonthIndex d + 1 := by
  have month := monthIndex_halfMonthOn d
  have day := day_halfMonthOn d
  have inMonth := d.day_bounds
  have length := (halfMonthOn d).monthLength_bounds
  unfold likeDay at day
  unfold halfMonthIndex
  split at month
  next early =>
    rw [if_pos early] at day ⊢
    omega
  next late =>
    rw [if_neg late] at day ⊢
    omega

theorem halfMonthIndex_halfMonthBack
    (room : -12000000 < d.monthIndex ∧ d.monthIndex ≤ 12000012) :
    halfMonthIndex (halfMonthBack d) = halfMonthIndex d - 1 := by
  have month := monthIndex_halfMonthBack d
  have day := day_halfMonthBack d
  have inMonth := d.day_bounds
  have length := (halfMonthBack d).monthLength_bounds
  unfold likeDay at day
  unfold halfMonthIndex
  split at month
  next early =>
    rw [if_pos early] at day ⊢
    omega
  next late =>
    rw [if_neg late] at day ⊢
    omega

theorem tdiv_two (n : Int) : 2 * n.tdiv 2 + n.tmod 2 = n ∧ -1 ≤ n.tmod 2 ∧ n.tmod 2 ≤ 1 := by
  have low := Int.lt_tmod_of_pos n (show 0 < (2 : Int) by decide)
  have high := Int.tmod_lt_of_pos n (show 0 < (2 : Int) by decide)
  exact ⟨Int.mul_tdiv_add_tmod n 2, by omega, by omega⟩

theorem halfMonthIndex_advanceSemimonths
    (within : -24000000 ≤ 2 * d.monthIndex + n ∧ 2 * d.monthIndex + n ≤ 24000022) :
    halfMonthIndex (advanceSemimonths d n) = halfMonthIndex d + n := by
  have parts := tdiv_two n
  have index := @Date.monthIndex_shiftMonths d (n.tdiv 2) (by omega)
  have moved := @halfMonthIndex_shiftMonths d (n.tdiv 2) (by omega)
  unfold advanceSemimonths
  dsimp only
  split
  next forth =>
    rw [halfMonthIndex_halfMonthOn (by omega)]
    omega
  next =>
    split
    next back =>
      rw [halfMonthIndex_halfMonthBack (by omega)]
      omega
    next whole => omega

theorem numbers_semimonth : semimonth.Numbers settings halfMonthIndex := by
  apply Numbers.of_moves
  next =>
    intro d x _
    have first := x.month_eq_monthIndex
    have second := d.month_eq_monthIndex
    rw [mem_semimonth_iff, halfMonthIndex_eq_iff, x.year_eq_monthIndex, d.year_eq_monthIndex]
    omega
  next =>
    intro a b next
    have length := a.monthLength_bounds
    unfold halfMonthIndex
    rcases Date.monthIndex_following next with inMonth | monthEnd <;> omega
  next =>
    intro d n inRange few moved
    have months := inRange.monthIndex_bounds
    have number := @halfMonthIndex_advanceSemimonths d n (by omega)
    have same : semimonth.advance d n = advanceSemimonths d n := if_neg moved
    rw [same]
    refine ⟨Date.inland_of_monthIndex ?_, number⟩
    unfold halfMonthIndex at number
    omega

end semimonth

theorem numbers_week : week.Numbers settings
    fun d => (d.serial + 4 - settings.weekStart.sundayIndex) / 7 := by
  apply Numbers.of_moves
  next =>
    intro d x room
    simp only [beginningOf, endOf, Date.le_def,
      Date.startOfWeek_serial (room.mono (show 6 ≤ 1300 by decide)),
      Date.endOfWeek_serial (room.mono (show 12 ≤ 1300 by decide)), Date.daysIntoWeek]
    omega
  next =>
    intro a b next
    rw [next]
    omega
  next =>
    intro d n inRange few moved
    have bounds := inRange.serial_bounds
    have move : (week.advance d n).serial = d.serial + 7 * n := by
      rw [advance, if_neg moved]
      exact (inRange.hasRoom (Int.le_refl _)).plus_serial (by omega)
    rw [move]
    exact ⟨Date.inland_of_serial (by omega), by omega⟩

theorem numbers_day : day.Numbers settings Date.serial := by
  apply Numbers.of_moves
  next =>
    intro d x _
    simp only [beginningOf, endOf, Date.le_def]
    omega
  next => exact fun next => .inr next
  next =>
    intro d n inRange few moved
    have bounds := inRange.serial_bounds
    have move : (day.advance d n).serial = d.serial + n := by
      rw [advance, if_neg moved]
      exact (inRange.hasRoom (Int.le_refl _)).plus_serial (by omega)
    rw [move]
    exact ⟨Date.inland_of_serial (by omega), rfl⟩

theorem biweek_advance_serial (inRange : d.InRange) (few : -400000 ≤ n ∧ n ≤ 400000) :
    (biweek.advance d n).serial = d.serial + 14 * n := by
  by_cases moved : n = 0
  next => rw [moved, advance_zero, Int.mul_zero, Int.add_zero]
  next =>
    rw [advance, if_neg moved]
    exact (inRange.hasRoom (Int.le_refl _)).plus_serial (by omega)

theorem exists_numbers (settings : Settings) (other : chunk ≠ .biweek) :
    ∃ number, chunk.Numbers settings number := by
  cases chunk with
  | year | half | quarter | bimonth | month => exact ⟨_, numbers_months rfl⟩
  | semimonth => exact ⟨_, numbers_semimonth⟩
  | biweek => exact absurd rfl other
  | week => exact ⟨_, numbers_week⟩
  | day => exact ⟨_, numbers_day⟩

end Almanac.Chunk
