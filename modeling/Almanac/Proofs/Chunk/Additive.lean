import Almanac.Proofs.Chunk.Numbering
import Almanac.Proofs.Chunk.Representable

set_option autoImplicit false

/-!
# Moves that add up

A month or half a month that is too short for a date's place cuts the move into it. From a place
that all of them have, two moves lead where the move by their sum does.
-/

namespace Almanac

namespace Chunk

variable {d e : Date} {n : Int}

def dayOfHalf (d : Date) : Nat :=
  if d.day ≤ 15 then d.day else d.day - 15

theorem dayOfHalf_early (early : d.day ≤ 15) : dayOfHalf d = d.day :=
  if_pos early

theorem dayOfHalf_late (late : 15 < d.day) : dayOfHalf d = d.day - 15 :=
  if_neg (Nat.not_le.mpr late)

theorem dayOfHalf_le_iff : dayOfHalf d ≤ 13 ↔ d.day ≤ 13 ∨ 16 ≤ d.day ∧ d.day ≤ 28 := by
  unfold dayOfHalf
  split <;> omega

theorem ext_halfMonth (half : halfMonthIndex d = halfMonthIndex e)
    (day : dayOfHalf d = dayOfHalf e) : d = e := by
  obtain ⟨month, early⟩ := halfMonthIndex_eq_iff.mp half
  refine Date.ext_monthIndex month ?_
  by_cases first : d.day ≤ 15
  next => rwa [dayOfHalf_early first, dayOfHalf_early (early.mp first)] at day
  next =>
    rw [dayOfHalf_late (by omega), dayOfHalf_late (by omega)] at day
    omega

section

variable (short : dayOfHalf d ≤ 13)

include short

theorem dayOfHalf_shiftMonths (n : Int) : dayOfHalf (d.shiftMonths n) = dayOfHalf d := by
  rw [dayOfHalf_le_iff] at short
  have day := @Date.day_shiftMonths_of_short d (by omega) n
  rw [dayOfHalf, day, dayOfHalf]

theorem dayOfHalf_of_like (like : e.day = likeDay d.day e.monthLength) :
    dayOfHalf e = dayOfHalf d := by
  have inMonth := d.day_bounds
  have length := e.monthLength_bounds
  rw [dayOfHalf_le_iff] at short
  unfold likeDay at like
  split at like
  next early =>
    rw [dayOfHalf_early early, dayOfHalf_late (by omega)]
    omega
  next late =>
    rw [dayOfHalf_early (by omega : e.day ≤ 15), dayOfHalf_late (by omega)]
    omega

theorem dayOfHalf_halfMonthOn : dayOfHalf (halfMonthOn d) = dayOfHalf d :=
  dayOfHalf_of_like short (day_halfMonthOn d)

theorem dayOfHalf_halfMonthBack : dayOfHalf (halfMonthBack d) = dayOfHalf d :=
  dayOfHalf_of_like short (day_halfMonthBack d)

theorem dayOfHalf_advanceSemimonths (n : Int) :
    dayOfHalf (advanceSemimonths d n) = dayOfHalf d := by
  have moved := dayOfHalf_shiftMonths short (n.tdiv 2)
  unfold advanceSemimonths
  dsimp only
  split
  next => rw [dayOfHalf_halfMonthOn (by omega), moved]
  next =>
    split
    next => rw [dayOfHalf_halfMonthBack (by omega), moved]
    next => exact moved

end

theorem advanceSemimonths_zero (inYears : d.Representable) : advanceSemimonths d 0 = d :=
  inYears.shiftMonths_zero

theorem advanceSemimonths_advanceSemimonths {a b : Int} (inRange : d.InRange)
    (short : dayOfHalf d ≤ 13) (first : -800000 ≤ a ∧ a ≤ 800000)
    (whole : -800000 ≤ a + b ∧ a + b ≤ 800000) :
    advanceSemimonths (advanceSemimonths d a) b = advanceSemimonths d (a + b) := by
  have months := inRange.monthIndex_bounds
  have index := @halfMonthIndex_advanceSemimonths d a (by omega)
  have day := dayOfHalf_advanceSemimonths short a
  apply ext_halfMonth
  next =>
    have near : -24000000 ≤ 2 * (advanceSemimonths d a).monthIndex + b ∧
        2 * (advanceSemimonths d a).monthIndex + b ≤ 24000022 := by
      unfold halfMonthIndex at index
      omega
    rw [halfMonthIndex_advanceSemimonths near, index, halfMonthIndex_advanceSemimonths (by omega),
      Int.add_assoc]
  next => rw [dayOfHalf_advanceSemimonths (by omega), day, dayOfHalf_advanceSemimonths short]

/-- The date's place in its period is one that every period of the kind has. -/
def Unclamped (chunk : Chunk) (d : Date) : Prop :=
  match chunk with
  | .year | .half | .quarter | .bimonth | .month => d.day ≤ 28
  | .semimonth => d.day ≤ 13 ∨ 16 ≤ d.day ∧ d.day ≤ 28
  | .biweek | .week | .day => True

section

variable {chunk : Chunk} {a b : Int}

theorem advance_advance_of {move : Date → Int → Date}
    (moves : ∀ (x : Date) (n : Int), n ≠ 0 → chunk.advance x n = move x n)
    (still : ∀ x : Date, x.Representable → move x 0 = x) (inYears : d.Representable)
    (sum : move (move d a) b = move d (a + b)) :
    chunk.advance (chunk.advance d a) b = chunk.advance d (a + b) := by
  have always (x : Date) (n : Int) (there : x.Representable) : chunk.advance x n = move x n :=
    advance_eq_of_still (still x there) (moves x) n
  rw [always _ b (representable_advance chunk inYears a), always d a inYears,
    always d (a + b) inYears, sum]

variable (inRange : d.InRange) (first : -400000 ≤ a ∧ a ≤ 400000)

include inRange first

theorem advance_advance_months (second : -400000 ≤ b ∧ b ≤ 400000) {size : Nat}
    (whole : chunk.months? = some size) (short : d.day ≤ 28) :
    chunk.advance (chunk.advance d a) b = chunk.advance d (a + b) := by
  have months := inRange.monthIndex_bounds
  have firstMove := months_bounds whole first
  have secondMove := months_bounds whole second
  apply advance_advance_of fun x n => advance_months whole x
  next =>
    intro x there
    rw [Int.mul_zero, there.shiftMonths_zero]
  next => exact inRange.representable
  next => rw [Int.mul_add, Date.shiftMonths_shiftMonths short (by omega) (by omega)]

theorem advance_advance_days {length : Nat} (few : length ≤ 14)
    (moves : ∀ (x : Date) (n : Int), n ≠ 0 → chunk.advance x n = x.plus (length * n)) :
    chunk.advance (chunk.advance d a) b = chunk.advance d (a + b) := by
  have firstMove := mul_bounds few first
  apply advance_advance_of moves
  next =>
    intro x there
    rw [Int.mul_zero, there.plus_zero]
  next => exact inRange.representable
  next => rw [Int.mul_add, (inRange.hasRoom (Int.le_refl _)).plus_plus (by omega)]

theorem advance_add (second : -400000 ≤ b ∧ b ≤ 400000) (chunk : Chunk)
    (unclamped : chunk.Unclamped d) :
    chunk.advance (chunk.advance d a) b = chunk.advance d (a + b) := by
  have moved (chunk : Chunk) (x : Date) (n : Int) (h : n ≠ 0) : chunk.advance x n = _ := if_neg h
  cases chunk with
  | year | half | quarter | bimonth | month =>
    exact advance_advance_months inRange first second rfl unclamped
  | semimonth =>
    apply advance_advance_of (moved semimonth) (fun x => advanceSemimonths_zero)
      inRange.representable
    exact advanceSemimonths_advanceSemimonths inRange (dayOfHalf_le_iff.mpr unclamped) (by omega)
      (by omega)
  | biweek | week => exact advance_advance_days inRange first (by decide) (moved _)
  | day =>
    refine @advance_advance_days _ _ _ _ inRange first 1 (by decide) fun x n h => ?_
    rw [moved day x n h, Int.natCast_one, Int.one_mul]

end

/-- Two moves from an unclamped date lead where the move by their sum does, so a move and the move
back lead to the date. -/
theorem advance_advance (chunk : Chunk) {d : Date} {a b : Int} (inRange : d.InRange)
    (unclamped : chunk.Unclamped d) (first : -400000 ≤ a ∧ a ≤ 400000)
    (second : -400000 ≤ b ∧ b ≤ 400000) :
    chunk.advance (chunk.advance d a) b = chunk.advance d (a + b) ∧
      chunk.advance (chunk.advance d a) (-a) = d := by
  have adds {n : Int} (few : -400000 ≤ n ∧ n ≤ 400000) :=
    advance_add inRange first few chunk unclamped
  refine ⟨adds second, ?_⟩
  rw [adds (by omega), Int.add_right_neg, advance_zero]

-- Three half months on from December 28 and eight back, by way of February 13.
theorem advance_advance_semimonths :
    (Date.on 2011 12 28).InRange ∧ semimonth.Unclamped (Date.on 2011 12 28) ∧
      semimonth.advance (Date.on 2011 12 28) 3 = Date.on 2012 2 13 ∧
      semimonth.advance (Date.on 2012 2 13) (-8) = Date.on 2011 10 13 ∧
      semimonth.advance (Date.on 2012 2 13) (-3) = Date.on 2011 12 28 := by
  have inRange : (Date.on 2011 12 28).InRange := by decide
  have unclamped : semimonth.Unclamped (Date.on 2011 12 28) := .inr (by decide)
  have on : semimonth.advance (Date.on 2011 12 28) 3 = Date.on 2012 2 13 := by decide
  have sum : semimonth.advance (Date.on 2011 12 28) (3 + -8) = Date.on 2011 10 13 := by decide
  obtain ⟨both, back⟩ := advance_advance semimonth inRange unclamped
    (show -400000 ≤ (3 : Int) ∧ (3 : Int) ≤ 400000 by decide)
    (show -400000 ≤ (-8 : Int) ∧ (-8 : Int) ≤ 400000 by decide)
  rw [on] at both back
  exact ⟨inRange, unclamped, on, both.trans sum, back⟩

end Chunk

end Almanac
