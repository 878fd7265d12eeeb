import Almanac.Proofs.Chunk.Span

set_option autoImplicit false

/-!
# Periods of a kind follow one another

The day after a period begins the next one and the day before it ends the one before, so that each
kind of period cuts all of time into pieces.
-/

namespace Almanac.Chunk

variable {chunk : Chunk} {settings : Settings} {d : Date}

namespace IsSpan

theorem endOf_endOf (span : chunk.IsSpan settings d) :
    chunk.endOf (chunk.endOf d settings) settings = chunk.endOf d settings :=
  (span.same _ (Int.le_trans span.first_le span.le_last) (Int.le_refl _)).2

theorem beginningOf_beginningOf (span : chunk.IsSpan settings d) :
    chunk.beginningOf (chunk.beginningOf d settings) settings = chunk.beginningOf d settings :=
  (span.same _ (Int.le_refl _) (Int.le_trans span.first_le span.le_last)).1

theorem beginningOf_after {x : Date} (span : chunk.IsSpan settings d)
    (other : chunk.IsSpan settings x)
    (after : x.serial = (chunk.endOf d settings).serial + 1) :
    chunk.beginningOf x settings = x := by
  have first := other.first_le
  have last := other.le_last
  rw [Date.le_def] at first last
  by_cases held : (chunk.beginningOf x settings).serial ≤ (chunk.endOf d settings).serial
  next =>
    -- A period with the last day of another and the day after it would end on both.
    have ends := (other.same (chunk.endOf d settings) held (by rw [Date.le_def]; omega)).2
    rw [span.endOf_endOf] at ends
    rw [← ends] at last
    omega
  next => exact Date.ext (by omega)

theorem endOf_before {x : Date} (span : chunk.IsSpan settings d)
    (other : chunk.IsSpan settings x)
    (before : x.serial = (chunk.beginningOf d settings).serial - 1) :
    chunk.endOf x settings = x := by
  have first := other.first_le
  have last := other.le_last
  rw [Date.le_def] at first last
  by_cases held : (chunk.beginningOf d settings).serial ≤ (chunk.endOf x settings).serial
  next =>
    -- A period with the first day of another and the day before it would begin on both.
    have begins := (other.same (chunk.beginningOf d settings) (by rw [Date.le_def]; omega) held).1
    rw [span.beginningOf_beginningOf] at begins
    rw [← begins] at first
    omega
  next => exact Date.ext (by omega)

theorem mono {e : Date} (span : chunk.IsSpan settings d) (other : chunk.IsSpan settings e)
    (h : d ≤ e) : chunk.beginningOf d settings ≤ chunk.beginningOf e settings ∧
      chunk.endOf d settings ≤ chunk.endOf e settings := by
  have first := span.first_le
  have last := other.le_last
  by_cases held : e ≤ chunk.endOf d settings
  next =>
    have same := span.same e (Int.le_trans first h) held
    rw [same.1, same.2]
    exact ⟨Int.le_refl _, Int.le_refl _⟩
  next =>
    refine ⟨?_, Int.le_trans (Int.le_of_not_le held) last⟩
    by_cases heldBack : chunk.beginningOf e settings ≤ d
    next => exact Int.le_of_eq (congrArg Date.serial (other.same d heldBack (Int.le_trans h last)).1)
    next => exact Int.le_trans first (Int.le_of_not_le heldBack)

end IsSpan

theorem biweek_of_last_week (room : d.HasRoom 900) (last : d.weekNumber settings = 53) :
    biweek.beginningOf d settings = d.startOfWeek settings ∧
      biweek.endOf d settings = d.endOfWeek settings := by
  have own := @Date.weekYear_spec d settings (room.mono (by decide))
  have number := @Date.weekNumber_eq d settings (room.mono (by decide))
  have weeks := Date.weekYearStart_succ settings (d.weekYear settings)
  have later := @Date.weekNumber_later d settings room
  rw [if_neg (by omega)] at later
  simp [beginningOf, endOf, last, later]

/-- Each date lies in one period of a kind, and the periods leave no day between them. -/
theorem spans_partition (chunk : Chunk) (settings : Settings) (d : Date) (inland : d.Inland) :
    chunk.beginningOf d settings ≤ d ∧ d ≤ chunk.endOf d settings ∧
    (∀ x : Date, chunk.beginningOf d settings ≤ x → x ≤ chunk.endOf d settings →
      chunk.beginningOf x settings = chunk.beginningOf d settings ∧
        chunk.endOf x settings = chunk.endOf d settings) ∧
    chunk.isBeginningOf ((chunk.endOf d settings).plus 1) settings = true ∧
    chunk.isEndOf ((chunk.beginningOf d settings).minus 1) settings = true ∧
    (chunk = .biweek → d.weekNumber settings = 53 →
      chunk.beginningOf d settings = d.startOfWeek settings ∧
        chunk.endOf d settings = d.endOfWeek settings) := by
  have room := inland.hasRoom
  have span := isSpan chunk settings (room.mono (by decide))
  have short := span.short
  have first := span.first_le
  have last := span.le_last
  rw [Date.le_def] at first last
  refine ⟨span.first_le, span.le_last, span.same, ?_, ?_, ?_⟩
  next =>
    have endRoom : (chunk.endOf d settings).HasRoom 2000 := room.near (by omega)
    have after : ((chunk.endOf d settings).plus 1).serial =
        (chunk.endOf d settings).serial + 1 := endRoom.plus_serial (by decide)
    have following : chunk.IsSpan settings ((chunk.endOf d settings).plus 1) :=
      isSpan chunk settings (endRoom.near (by omega))
    rw [isBeginningOf, span.beginningOf_after following after, beq_self_eq_true]
  next =>
    have startRoom : (chunk.beginningOf d settings).HasRoom 2000 := room.near (by omega)
    have before : ((chunk.beginningOf d settings).minus 1).serial =
        (chunk.beginningOf d settings).serial - 1 := startRoom.minus_serial (by decide)
    have preceding : chunk.IsSpan settings ((chunk.beginningOf d settings).minus 1) :=
      isSpan chunk settings (startRoom.near (by omega))
    rw [isEndOf, span.endOf_before preceding before, beq_self_eq_true]
  next =>
    rintro rfl number
    exact biweek_of_last_week (room.mono (by decide)) number

theorem spans_partition_short_biweek :
    (Date.on 2019 1 3).Inland ∧ (Date.on 2019 1 3).weekNumber {} = 53 ∧
      biweek.beginningOf (Date.on 2019 1 3) {} = Date.on 2018 12 31 ∧
      biweek.endOf (Date.on 2019 1 3) {} = Date.on 2019 1 6 ∧
      biweek.isBeginningOf (Date.on 2019 1 7) {} = true := by
  have inland : (Date.on 2019 1 3).Inland := by decide
  have number : (Date.on 2019 1 3).weekNumber {} = 53 := by decide
  obtain ⟨-, -, -, next, -, short⟩ := spans_partition .biweek {} (Date.on 2019 1 3) inland
  obtain ⟨first, last⟩ := short rfl number
  exact ⟨inland, number, first, last, next⟩

end Almanac.Chunk
