import Almanac.Proofs.Chunk.Advance
import Mathlib.Logic.Relation

set_option autoImplicit false

/-!
# Periods within periods

The months of a year make up its bimonths, quarters and halves, and half months make up months. Weeks
make up biweeks, also where a year of weeks ends. A period of a longer kind is a whole number of
periods of a shorter kind that fits into it.
-/

namespace Almanac.Chunk

-- The next longer kinds of period into which the periods of a kind fit.
def wider : Chunk → List Chunk
  | .day => [.semimonth, .week]
  | .week => [.biweek]
  | .semimonth => [.month]
  | .month => [.bimonth, .quarter]
  | .bimonth | .quarter => [.half]
  | .half => [.year]
  | .biweek | .year => []

def Finer : Chunk → Chunk → Prop :=
  Relation.TransGen fun fine coarse => coarse ∈ fine.wider

def Nested (fine coarse : Chunk) (settings : Settings) : Prop :=
  ∀ {d x : Date}, d.HasRoom 1300 →
    fine.beginningOf d settings ≤ x ∧ x ≤ fine.endOf d settings →
      coarse.beginningOf d settings ≤ x ∧ x ≤ coarse.endOf d settings

variable {fine coarse : Chunk} {settings : Settings} {d x first : Date}

theorem nested_day : day.Nested coarse settings := by
  intro d x room within
  have same : x = d := by
    simp only [beginningOf, endOf, Date.le_def] at within
    exact Date.ext (by omega)
  have span := isSpan coarse settings room
  rw [same]
  exact ⟨span.first_le, span.le_last⟩

theorem spanOf_mul {size count month other : Nat}
    (same : Month.spanOf size other = Month.spanOf size month) :
    Month.spanOf (size * count) other = Month.spanOf (size * count) month := by
  simp only [Month.spanOf, Nat.add_right_cancel_iff] at same ⊢
  rw [← Nat.div_div_eq_div_mul, same, Nat.div_div_eq_div_mul]

theorem nested_months {size count : Nat} (short : fine.months? = some size)
    (long : coarse.months? = some (size * count)) : fine.Nested coarse settings := by
  intro d x _ within
  rw [mem_months_iff short] at within
  rw [mem_months_iff long]
  exact ⟨within.1, spanOf_mul within.2⟩

theorem nested_semimonth : semimonth.Nested month settings := by
  intro d x _ within
  rw [mem_semimonth_iff] at within
  rw [mem_months_iff rfl, within.1, within.2.1]
  exact ⟨rfl, rfl⟩

theorem nested_week : week.Nested biweek settings := by
  intro d x room within
  have own := @Date.weekYear_spec d settings (room.mono (by decide))
  -- The weeks and the biweeks of a year are counted from the same day up to whole weeks.
  have weeks := Date.weekYearStart_succ settings (d.weekYear settings)
  have into := d.daysIntoWeek_eq settings (d.weekYear settings)
  simp only [Date.le_def, beginningOf, endOf, Date.startOfWeek_serial (room.mono (by decide)),
    Date.endOfWeek_serial (room.mono (by decide)), into] at within
  rw [Date.le_def, Date.le_def, beginningOf_biweek (room.mono (by decide)),
    endOf_biweek (room.mono (by decide))]
  omega

theorem nested_of_mem_wider (next : coarse ∈ fine.wider) : fine.Nested coarse settings := by
  cases fine with
  | day => exact nested_day
  | week =>
    obtain rfl := List.mem_singleton.mp next
    exact nested_week
  | semimonth =>
    obtain rfl := List.mem_singleton.mp next
    exact nested_semimonth
  | month =>
    rw [wider, List.mem_cons, List.mem_singleton] at next
    rcases next with rfl | rfl
    next => exact @nested_months _ _ _ 1 2 rfl rfl
    next => exact @nested_months _ _ _ 1 3 rfl rfl
  | bimonth =>
    obtain rfl := List.mem_singleton.mp next
    exact @nested_months _ _ _ 2 3 rfl rfl
  | quarter =>
    obtain rfl := List.mem_singleton.mp next
    exact @nested_months _ _ _ 3 2 rfl rfl
  | half =>
    obtain rfl := List.mem_singleton.mp next
    exact @nested_months _ _ _ 6 2 rfl rfl
  | biweek | year => cases next

theorem nested_of_finer (finer : fine.Finer coarse) : fine.Nested coarse settings := by
  induction finer with
  | single next => exact nested_of_mem_wider next
  | tail _ next ih => exact fun room within => nested_of_mem_wider next room (ih room within)

namespace Nested

variable (nested : fine.Nested coarse settings)

include nested

theorem same (room : d.HasRoom 1300)
    (within : fine.beginningOf d settings ≤ x ∧ x ≤ fine.endOf d settings) :
    coarse.beginningOf x settings = coarse.beginningOf d settings ∧
      coarse.endOf x settings = coarse.endOf d settings :=
  have inside := nested room within
  (isSpan coarse settings room).same x inside.1 inside.2

theorem beginningOf_eq (room : d.HasRoom 1300) (start : coarse.beginningOf d settings = d) :
    fine.beginningOf d settings = d := by
  have span := isSpan fine settings room
  have first := (nested room ⟨Int.le_refl _, Int.le_trans span.first_le span.le_last⟩).1
  have low := span.first_le
  rw [start, Date.le_def] at first
  rw [Date.le_def] at low
  exact Date.ext (by omega)

theorem following_within (room : d.HasRoom 2000)
    (more : fine.endOf d settings ≠ coarse.endOf d settings) :
    d < fine.following settings d ∧ fine.following settings d ≤ coarse.endOf d settings ∧
      coarse.endOf (fine.following settings d) settings = coarse.endOf d settings := by
  have spanRoom : d.HasRoom 1300 := room.mono (by decide)
  have span := isSpan fine settings spanRoom
  have whole := isSpan coarse settings spanRoom
  have last := (nested spanRoom ⟨Int.le_trans span.first_le span.le_last, Int.le_refl _⟩).2
  have ends := span.le_last
  have first := whole.first_le
  have serial := @following_serial fine settings d room
  rw [Ne, Date.eq_iff_serial] at more
  rw [Date.le_def] at last ends first
  have high : fine.following settings d ≤ coarse.endOf d settings := by
    rw [Date.le_def]
    omega
  refine ⟨by rw [Date.lt_def]; omega, high, (whole.same _ ?_ high).2⟩
  rw [Date.le_def]
  omega

theorem exists_count {last : Date} (ends : coarse.endOf first settings = last)
    (room : first.HasRoom 2000) (roomLast : last.HasRoom 2000)
    (start : fine.isBeginningOf first settings = true) :
    ∃ count, 0 < count ∧
      (∀ i, i ≤ count →
        fine.isBeginningOf ((fine.following settings)^[i] first) settings = true) ∧
      (fine.following settings)^[count] first = last.plus 1 := by
  obtain ⟨left, near⟩ : ∃ left : Nat, last.serial < first.serial + left :=
    ⟨(last.serial - first.serial + 1).toNat, by omega⟩
  induction left generalizing first with
  | zero =>
    have after := (isSpan coarse settings (room.mono (by decide))).le_last
    rw [ends, Date.le_def] at after
    omega
  | succ left ih =>
    have next := isBeginningOf_following fine settings room
    by_cases done : fine.endOf first settings = coarse.endOf first settings
    next =>
      refine ⟨1, Nat.one_pos, ?_, ?_⟩
      next =>
        rintro (_ | _ | i) few
        next => exact start
        next => exact next
        next => omega
      next => rw [Function.iterate_one, following, done, ends]
    next =>
      obtain ⟨later, within, sameEnd⟩ := nested.following_within room done
      rw [ends] at within sameEnd
      have nextRoom := room.between roomLast (Int.le_of_lt later) within
      rw [Date.lt_def] at later
      obtain ⟨count, -, starts, arrives⟩ := ih sameEnd nextRoom next (by omega)
      refine ⟨count + 1, Nat.succ_pos count, ?_, ?_⟩
      next =>
        rintro (_ | i) few
        next => exact start
        next => exact starts i (by omega)
      next => rw [Function.iterate_succ_apply, arrives]

end Nested

/-- Both ends of a shorter period lie in the longer period of its days, and a longer period is a
number of shorter ones in a row. -/
theorem spans_nest (finer : fine.Finer coarse) (settings : Settings) {d : Date}
    (inland : d.Inland) :
    (coarse.beginningOf (fine.beginningOf d settings) settings = coarse.beginningOf d settings ∧
      coarse.beginningOf (fine.endOf d settings) settings = coarse.beginningOf d settings) ∧
    (coarse.endOf (fine.beginningOf d settings) settings = coarse.endOf d settings ∧
      coarse.endOf (fine.endOf d settings) settings = coarse.endOf d settings) ∧
    ∃ count, 0 < count ∧
      (∀ i, i ≤ count → fine.isBeginningOf
        ((fine.following settings)^[i] (coarse.beginningOf d settings)) settings = true) ∧
      (fine.following settings)^[count] (coarse.beginningOf d settings) =
        (coarse.endOf d settings).plus 1 := by
  have nested : fine.Nested coarse settings := nested_of_finer finer
  have room := inland.hasRoom
  have spanRoom : d.HasRoom 1300 := room.mono (by decide)
  have span := isSpan fine settings spanRoom
  have whole := isSpan coarse settings spanRoom
  obtain ⟨firstRoom, lastRoom⟩ :=
    whole.hasRoom (room.mono (show (2000 + 366 : Int) ≤ 365000 by decide))
  have ends := Int.le_trans span.first_le span.le_last
  have atFirst := nested.same spanRoom ⟨Int.le_refl _, ends⟩
  have atLast := nested.same spanRoom ⟨ends, Int.le_refl _⟩
  have wholeEnd := (whole.same _ (Int.le_refl _) (Int.le_trans whole.first_le whole.le_last)).2
  have start := nested.beginningOf_eq (firstRoom.mono (by decide)) whole.beginningOf_beginningOf
  exact ⟨⟨atFirst.1, atLast.1⟩, ⟨atFirst.2, atLast.2⟩,
    nested.exists_count wholeEnd firstRoom lastRoom (isBeginningOf_iff.mpr start)⟩

-- The last week of 2018 is a biweek of its own, in which a week fits once.
theorem spans_nest_short_biweek :
    week.Finer biweek ∧ (Date.on 2019 1 3).Inland ∧
      biweek.beginningOf (week.endOf (Date.on 2019 1 3) {}) {} = Date.on 2018 12 31 ∧
      biweek.endOf (week.beginningOf (Date.on 2019 1 3) {}) {} = Date.on 2019 1 6 ∧
      ∃ count, 0 < count ∧
        (week.following {})^[count] (Date.on 2018 12 31) = Date.on 2019 1 7 := by
  have finer : week.Finer biweek := .single (by decide)
  have inland : (Date.on 2019 1 3).Inland := by decide
  have first : biweek.beginningOf (Date.on 2019 1 3) {} = Date.on 2018 12 31 := by decide
  have last : biweek.endOf (Date.on 2019 1 3) {} = Date.on 2019 1 6 := by decide
  have after : (Date.on 2019 1 6).plus 1 = Date.on 2019 1 7 := by decide
  obtain ⟨⟨-, begins⟩, ⟨ends, -⟩, count, positive, -, arrives⟩ := spans_nest finer {} inland
  rw [first] at begins arrives
  rw [last] at ends arrives
  rw [after] at arrives
  exact ⟨finer, inland, begins, ends, count, positive, arrives⟩

end Almanac.Chunk
