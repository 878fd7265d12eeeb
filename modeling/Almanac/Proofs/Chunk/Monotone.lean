import Almanac.Proofs.Chunk.Partition
import Almanac.Proofs.Date.CheckedMove
import Almanac.Proofs.Period.Ordered

set_option autoImplicit false

/-!
# Moves keep the order of dates

Of two dates the earlier one does not come to lie after the other by a move of both, nor do the ends
of its period. A move by months or half months can put both on the same day.
-/

namespace Almanac

theorem Date.addMonths_mono {d e a b : Date} {n : Int} (h : d ≤ e)
    (movedD : d.addMonths n = .ok a) (movedE : e.addMonths n = .ok b) : a ≤ b := by
  obtain ⟨inRangeD, serialD⟩ := ofSerial_eq_ok.mp movedD
  obtain ⟨inRangeE, serialE⟩ := ofSerial_eq_ok.mp movedE
  obtain rfl := ext serialD
  obtain rfl := ext serialE
  -- A move that arrives in the years 1 to 9999 is not cut off on its way.
  rw [inRange_shiftMonths_iff] at inRangeD inRangeE
  exact shiftMonths_mono h (by omega) (by omega)

namespace Chunk

variable {d e a b : Date} {n : Int}

theorem le_iff_halfMonthIndex :
    d ≤ e ↔ halfMonthIndex d < halfMonthIndex e ∨
      (halfMonthIndex d = halfMonthIndex e ∧ d.day ≤ e.day) := by
  rw [Date.le_iff_monthIndex]
  unfold halfMonthIndex
  omega

theorem likeDay_mono {day later length : Nat} (half : day ≤ 15 ↔ later ≤ 15) (h : day ≤ later) :
    likeDay day length ≤ likeDay later length := by
  unfold likeDay
  by_cases early : day ≤ 15
  next =>
    rw [if_pos early, if_pos (half.mp early)]
    omega
  next =>
    rw [if_neg early, if_neg (half.not.mp early)]
    omega

theorem le_of_likeDay (h : d ≤ e) (indexA : halfMonthIndex a = halfMonthIndex d + n)
    (indexB : halfMonthIndex b = halfMonthIndex e + n) (dayA : a.day = likeDay d.day a.monthLength)
    (dayB : b.day = likeDay e.day b.monthLength) : a ≤ b := by
  rw [le_iff_halfMonthIndex] at h ⊢
  rcases h with earlier | ⟨same, day⟩
  next => exact .inl (by omega)
  next =>
    have arrival : halfMonthIndex a = halfMonthIndex b := by omega
    refine .inr ⟨arrival, ?_⟩
    rw [dayA, dayB, Date.monthLength_congr (halfMonthIndex_eq_iff.mp arrival).1]
    exact likeDay_mono (halfMonthIndex_eq_iff.mp same).2 day

theorem advanceSemimonths_mono (inRangeD : d.InRange) (inRangeE : e.InRange)
    (few : -400000 ≤ n ∧ n ≤ 400000) (h : d ≤ e) :
    advanceSemimonths d n ≤ advanceSemimonths e n := by
  have monthsD := inRangeD.monthIndex_bounds
  have monthsE := inRangeE.monthIndex_bounds
  have parts := tdiv_two n
  have indexD := @Date.monthIndex_shiftMonths d (n.tdiv 2) (by omega)
  have indexE := @Date.monthIndex_shiftMonths e (n.tdiv 2) (by omega)
  have moved := @Date.shiftMonths_mono d e (n.tdiv 2) h (by omega) (by omega)
  unfold advanceSemimonths
  dsimp only
  split
  next =>
    exact le_of_likeDay moved (halfMonthIndex_halfMonthOn (by omega))
      (halfMonthIndex_halfMonthOn (by omega)) (day_halfMonthOn _) (day_halfMonthOn _)
  next =>
    split
    next =>
      exact le_of_likeDay moved (halfMonthIndex_halfMonthBack (by omega))
        (halfMonthIndex_halfMonthBack (by omega)) (day_halfMonthBack _) (day_halfMonthBack _)
    next => exact moved

theorem advance_mono (chunk : Chunk) (inRangeD : d.InRange) (inRangeE : e.InRange)
    (few : -400000 ≤ n ∧ n ≤ 400000) (h : d ≤ e) : chunk.advance d n ≤ chunk.advance e n := by
  have monthsD := inRangeD.monthIndex_bounds
  have monthsE := inRangeE.monthIndex_bounds
  by_cases still : n = 0
  next => rwa [still, advance_zero, advance_zero]
  next =>
    have months {size : Nat} (whole : chunk.months? = some size) :
        chunk.advance d n ≤ chunk.advance e n := by
      have far := months_bounds whole few
      rw [advance_months whole d still, advance_months whole e still]
      exact Date.shiftMonths_mono h (by omega) (by omega)
    have moved (chunk : Chunk) (x : Date) : chunk.advance x n = _ := if_neg still
    cases chunk with
    | year | half | quarter | bimonth | month => exact months rfl
    | semimonth =>
      rw [moved, moved]
      exact advanceSemimonths_mono inRangeD inRangeE few h
    | biweek | week | day =>
      rw [moved, moved]
      exact Date.plus_mono h _

end Chunk

namespace Period

variable {d e : Date}

theorem chunkEdge_mono (chunk : Chunk) (settings : Settings) (edge : Edge) (roomD : d.HasRoom 1300)
    (roomE : e.HasRoom 1300) (h : d ≤ e) :
    chunkEdge chunk d settings edge ≤ chunkEdge chunk e settings edge := by
  have spanD := Chunk.isSpan chunk settings roomD
  have spanE := Chunk.isSpan chunk settings roomE
  cases edge with
  | first => exact (spanD.mono spanE h).1
  | last => exact (spanD.mono spanE h).2

end Period

namespace Spec

theorem resolve_relative (chunk : Chunk) (n : Int) (skip : Option Skip) (edge : Edge)
    (today : Date) (settings : Settings) :
    Spec.resolve ⟨.relative chunk n, skip⟩ edge today settings =
      .ok (some ((skip.elim id Skip.apply)
        (Period.chunkEdge chunk (chunk.advance today n) settings edge))) := by
  cases skip <;> rfl

end Spec

namespace Chunk

/-- Moves by periods, checked moves by months and years and the ends of a period keep the order of
two dates, and so does the meaning of a relative period. -/
theorem moves_keep_order (chunk : Chunk) (settings : Settings) {d e : Date} (inRangeD : d.InRange)
    (inRangeE : e.InRange) (h : d ≤ e) {n : Int} (few : -400000 ≤ n ∧ n ≤ 400000) :
    chunk.advance d n ≤ chunk.advance e n ∧
    chunk.beginningOf d settings ≤ chunk.beginningOf e settings ∧
    chunk.endOf d settings ≤ chunk.endOf e settings ∧
    (∀ a b : Date, d.addMonths n = .ok a → e.addMonths n = .ok b → a ≤ b) ∧
    (∀ a b : Date, d.addYears n = .ok a → e.addYears n = .ok b → a ≤ b) ∧
    ∀ (skip : Option Skip) (edge : Edge), ∃ a b : Date,
      Spec.resolve ⟨.relative chunk n, skip⟩ edge d settings = .ok (some a) ∧
      Spec.resolve ⟨.relative chunk n, skip⟩ edge e settings = .ok (some b) ∧ a ≤ b := by
  have moved := advance_mono chunk inRangeD inRangeE few h
  have spanD := isSpan chunk settings (inRangeD.hasRoom (by decide))
  have spanE := isSpan chunk settings (inRangeE.hasRoom (by decide))
  obtain ⟨begins, ends⟩ := spanD.mono spanE h
  refine ⟨moved, begins, ends, fun _ _ => Date.addMonths_mono h, fun _ _ => Date.addMonths_mono h,
    fun skip edge => ⟨_, _, Spec.resolve_relative .., Spec.resolve_relative .., ?_⟩⟩
  have roomD := (chunk.advance_inland inRangeD few).hasRoom
  have roomE := (chunk.advance_inland inRangeE few).hasRoom
  have there := Period.chunkEdge_mono chunk settings edge (roomD.mono (by decide))
    (roomE.mono (by decide)) moved
  cases skip with
  | none => exact there
  | some skip => exact skip.apply_mono there

-- Half a month back the 15th goes to the leap day, and a month back the 31st does.
theorem moves_keep_order_leap_day :
    (Date.on 2012 3 15).InRange ∧ (Date.on 2012 3 31).InRange ∧
      Date.on 2012 3 15 ≤ Date.on 2012 3 31 ∧
      semimonth.advance (Date.on 2012 3 15) (-1) = Date.on 2012 2 29 ∧
      semimonth.advance (Date.on 2012 3 31) (-1) = Date.on 2012 3 15 ∧
      Date.on 2012 2 29 ≤ Date.on 2012 3 15 ∧
      (Date.on 2012 3 15).addMonths (-1) = .ok (Date.on 2012 2 15) ∧
      (Date.on 2012 3 31).addMonths (-1) = .ok (Date.on 2012 2 29) ∧
      Date.on 2012 2 15 ≤ Date.on 2012 2 29 ∧
      Spec.resolve ⟨.relative semimonth (-1), some ⟨.after, false, .monday⟩⟩ .last
        (Date.on 2012 3 15) {} = .ok (some (Date.on 2012 3 5)) ∧
      Spec.resolve ⟨.relative semimonth (-1), some ⟨.after, false, .monday⟩⟩ .last
        (Date.on 2012 3 31) {} = .ok (some (Date.on 2012 3 19)) ∧
      Date.on 2012 3 5 ≤ Date.on 2012 3 19 := by
  have inRangeD : (Date.on 2012 3 15).InRange := by decide
  have inRangeE : (Date.on 2012 3 31).InRange := by decide
  have h : Date.on 2012 3 15 ≤ Date.on 2012 3 31 := by decide
  have early : semimonth.advance (Date.on 2012 3 15) (-1) = Date.on 2012 2 29 := by decide
  have late : semimonth.advance (Date.on 2012 3 31) (-1) = Date.on 2012 3 15 := by decide
  have earlyMonth : (Date.on 2012 3 15).addMonths (-1) = .ok (Date.on 2012 2 15) := by decide
  have lateMonth : (Date.on 2012 3 31).addMonths (-1) = .ok (Date.on 2012 2 29) := by decide
  have earlySkip : Spec.resolve ⟨.relative semimonth (-1), some ⟨.after, false, .monday⟩⟩ .last
      (Date.on 2012 3 15) {} = .ok (some (Date.on 2012 3 5)) := by
    rw [Spec.resolve_relative, early]
    decide
  have lateSkip : Spec.resolve ⟨.relative semimonth (-1), some ⟨.after, false, .monday⟩⟩ .last
      (Date.on 2012 3 31) {} = .ok (some (Date.on 2012 3 19)) := by
    rw [Spec.resolve_relative, late]
    decide
  obtain ⟨moves, -, -, months, -, resolves⟩ := moves_keep_order semimonth {} inRangeD inRangeE h
    (show -400000 ≤ (-1 : Int) ∧ (-1 : Int) ≤ 400000 by decide)
  rw [early, late] at moves
  obtain ⟨a, b, isEarly, isLate, skips⟩ := resolves (some ⟨.after, false, .monday⟩) .last
  rw [earlySkip] at isEarly
  rw [lateSkip] at isLate
  cases isEarly
  cases isLate
  exact ⟨inRangeD, inRangeE, h, early, late, moves, earlyMonth, lateMonth,
    months _ _ earlyMonth lateMonth, earlySkip, lateSkip, skips⟩

end Chunk

end Almanac
