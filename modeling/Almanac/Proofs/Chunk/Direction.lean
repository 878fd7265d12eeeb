import Almanac.Proofs.Chunk.Word

set_option autoImplicit false

/-!
# The direction of moves

A move on leads to no earlier date and a move back to no later one, also where it is cut off at the
years at which adding stops. The exceptions are moves by an odd number of half months from the last
half month of all, or back from the first: the whole months are cut off, and the half month that is
left leads back into the same month.
-/

namespace Almanac

namespace Date

variable {d : Date} {n : Int}

theorem day_shiftMonths_of_sameMonth (same : (d.shiftMonths n).monthIndex = d.monthIndex) :
    (d.shiftMonths n).day = d.day := by
  rw [day_shiftMonths, monthLength_congr same]
  exact Nat.min_eq_left d.day_bounds.2

namespace Representable

variable (inYears : d.Representable)

include inYears

theorem le_shiftMonths (forth : 0 ≤ n) : d ≤ d.shiftMonths n := by
  have months := inYears.monthIndex_bounds
  have index := d.monthIndex_shiftMonths_cut n
  rw [le_iff_monthIndex]
  by_cases same : (d.shiftMonths n).monthIndex = d.monthIndex
  next => exact .inr ⟨same.symm, Nat.le_of_eq (day_shiftMonths_of_sameMonth same).symm⟩
  next => exact .inl (by omega)

theorem shiftMonths_le (back : n ≤ 0) : d.shiftMonths n ≤ d := by
  have months := inYears.monthIndex_bounds
  have index := d.monthIndex_shiftMonths_cut n
  rw [le_iff_monthIndex]
  by_cases same : (d.shiftMonths n).monthIndex = d.monthIndex
  next => exact .inr ⟨same, Nat.le_of_eq (day_shiftMonths_of_sameMonth same)⟩
  next => exact .inl (by omega)

theorem le_plus (forth : 0 ≤ n) : d ≤ d.plus n := by
  have bounds := inYears.serial_bounds
  simp only [le_def, plus, saturate, floor_serial, ceiling_serial]
  omega

theorem plus_le (back : n ≤ 0) : d.plus n ≤ d := by
  have bounds := inYears.serial_bounds
  simp only [le_def, plus, saturate, floor_serial, ceiling_serial]
  omega

end Representable

end Date

namespace Chunk

variable {d : Date} {n : Int}

theorem tmod_two_of_nonneg (h : 0 ≤ n) : n.tmod 2 = n % 2 :=
  Int.tmod_eq_emod_of_nonneg h

theorem tmod_two_of_nonpos (h : n ≤ 0) : n.tmod 2 = -(n % 2) := by
  have opposite := Int.neg_tmod n 2
  rw [tmod_two_of_nonneg (by omega : 0 ≤ -n)] at opposite
  omega

theorem le_advanceSemimonths_iff (inYears : d.Representable) (forth : 0 ≤ n) :
    d ≤ advanceSemimonths d n ↔ ¬(n % 2 = 1 ∧ d.monthIndex = 12000011 ∧ 16 ≤ d.day) := by
  have parts := tdiv_two n
  have rest := tmod_two_of_nonneg forth
  have months := inYears.monthIndex_bounds
  have inMonth := d.day_bounds
  have early := d.firstHalf_shiftMonths (n.tdiv 2)
  have moved := inYears.le_shiftMonths (show 0 ≤ n.tdiv 2 by omega)
  have index := d.monthIndex_shiftMonths_cut (n.tdiv 2)
  unfold advanceSemimonths
  generalize d.shiftMonths (n.tdiv 2) = m at *
  dsimp only
  split
  next odd =>
    have reached := monthIndex_halfMonthOn m
    have day := day_halfMonthOn m
    have length := (halfMonthOn m).monthLength_bounds
    rw [Date.le_iff_monthIndex] at moved ⊢
    unfold likeDay at day
    split at reached
    next first =>
      rw [if_pos first] at day
      omega
    next second =>
      rw [if_neg second] at day
      omega
  next even =>
    rw [if_neg (by omega)]
    exact iff_of_true moved (by omega)

theorem advanceSemimonths_le_iff (inYears : d.Representable) (back : n ≤ 0) :
    advanceSemimonths d n ≤ d ↔ ¬(n % 2 = 1 ∧ d.monthIndex = -12000000 ∧ d.day ≤ 15) := by
  have parts := tdiv_two n
  have rest := tmod_two_of_nonpos back
  have months := inYears.monthIndex_bounds
  have inMonth := d.day_bounds
  have early := d.firstHalf_shiftMonths (n.tdiv 2)
  have moved := inYears.shiftMonths_le (show n.tdiv 2 ≤ 0 by omega)
  have index := d.monthIndex_shiftMonths_cut (n.tdiv 2)
  unfold advanceSemimonths
  generalize d.shiftMonths (n.tdiv 2) = m at *
  dsimp only
  rw [if_neg (by omega)]
  split
  next odd =>
    have reached := monthIndex_halfMonthBack m
    have start := m.day_bounds
    have day := day_halfMonthBack m
    have length := (halfMonthBack m).monthLength_bounds
    rw [Date.le_iff_monthIndex] at moved ⊢
    unfold likeDay at day
    split at reached
    next first =>
      rw [if_pos first] at day
      omega
    next second =>
      rw [if_neg second] at day
      omega
  next even => exact iff_of_true moved (by omega)

theorem lastHalfMonth_le_iff (inYears : d.Representable) :
    Date.on 1000000 12 16 ≤ d ↔ d.monthIndex = 12000011 ∧ 16 ≤ d.day := by
  have years := inYears.year_bounds
  have months := d.month_bounds
  rw [Date.on_le_iff (by decide), Date.monthIndex]
  omega

theorem le_firstHalfMonth_iff (inYears : d.Representable) :
    d ≤ Date.on (-1000000) 1 15 ↔ d.monthIndex = -12000000 ∧ d.day ≤ 15 := by
  have years := inYears.year_bounds
  have months := d.month_bounds
  rw [Date.le_on_iff (by decide), Date.monthIndex]
  omega

/-- Moving by periods keeps its direction, in machine words as well, except by an odd number of half
months from the last half month of the year 1000000 on or from the first of the year -1000000 back,
where it always turns round. -/
theorem advance_direction_iff (chunk : Chunk) {d : Date} (inYears : d.Representable) {n : Int}
    (word : Date.IsWord n) :
    Word.advance? chunk d n = some (chunk.advance d n) ∧
    (0 < n → (d ≤ chunk.advance d n ↔
      ¬(chunk = .semimonth ∧ n % 2 = 1 ∧ Date.on 1000000 12 16 ≤ d))) ∧
    (n < 0 → (chunk.advance d n ≤ d ↔
      ¬(chunk = .semimonth ∧ n % 2 = 1 ∧ d ≤ Date.on (-1000000) 1 15))) := by
  have moved (chunk : Chunk) (h : n ≠ 0) : chunk.advance d n = _ := if_neg h
  refine ⟨Word.advance?_eq inYears chunk word, fun forth => ?_, fun back => ?_⟩
  next =>
    rw [moved chunk (by omega), lastHalfMonth_le_iff inYears]
    cases chunk with
    | year | half | quarter | bimonth | month =>
      exact iff_of_true (inYears.le_shiftMonths (by omega)) (by simp)
    | semimonth => simpa using le_advanceSemimonths_iff inYears (Int.le_of_lt forth)
    | biweek | week | day => exact iff_of_true (inYears.le_plus (by omega)) (by simp)
  next =>
    rw [moved chunk (by omega), le_firstHalfMonth_iff inYears]
    cases chunk with
    | year | half | quarter | bimonth | month =>
      exact iff_of_true (inYears.shiftMonths_le (by omega)) (by simp)
    | semimonth => simpa using advanceSemimonths_le_iff inYears (Int.le_of_lt back)
    | biweek | week | day => exact iff_of_true (inYears.plus_le (by omega)) (by simp)

-- As many half months as a word holds are cut off from anywhere, and only from the last half month
-- of all they lead back.
theorem advance_direction_iff_cut_off :
    (Date.on 999998 1 31).Representable ∧ (Date.on 1000000 12 30).Representable ∧
      Date.IsWord 2147483647 ∧
      semimonth.advance (Date.on 999998 1 31) 2147483647 = Date.on 1000000 12 15 ∧
      Date.on 999998 1 31 ≤ Date.on 1000000 12 15 ∧
      ¬Date.on 1000000 12 30 ≤ semimonth.advance (Date.on 1000000 12 30) 2147483647 := by
  have word : Date.IsWord 2147483647 := by decide
  have first : (Date.on 999998 1 31).Representable := by decide
  have last : (Date.on 1000000 12 30).Representable := by decide
  have reached : semimonth.advance (Date.on 999998 1 31) 2147483647 = Date.on 1000000 12 15 := by
    decide
  obtain ⟨-, onward, -⟩ := advance_direction_iff semimonth first word
  obtain ⟨-, turns, -⟩ := advance_direction_iff semimonth last word
  have later := (onward (by decide)).mpr (by decide)
  rw [reached] at later
  exact ⟨first, last, word, reached, later, mt (turns (by decide)).mp (not_not_intro (by decide))⟩

theorem advance_turns_round :
    (Date.on 1000000 12 20).Representable ∧ (Date.on (-1000000) 1 5).Representable ∧
      semimonth.advance (Date.on 1000000 12 20) 1 = Date.on 1000000 12 5 ∧
      ¬Date.on 1000000 12 20 ≤ semimonth.advance (Date.on 1000000 12 20) 1 ∧
      semimonth.advance (Date.on (-1000000) 1 5) (-1) = Date.on (-1000000) 1 20 ∧
      ¬semimonth.advance (Date.on (-1000000) 1 5) (-1) ≤ Date.on (-1000000) 1 5 := by
  decide

end Chunk

end Almanac
