import Almanac.Proofs.Date.Representable
import Almanac.Proofs.Workday.Search
import Almanac.Proofs.Workday.Shift

set_option autoImplicit false

/-!
# Counting workdays between dates

The count of the workdays between two dates is the difference of their places in the order of
workdays, so that counts add up and undo the moves by workdays.
-/

namespace Almanac

theorem fold_eq_countP (p : Nat → Bool) (n : Nat) :
    Nat.fold n (fun i _ count => if p i then count + 1 else count) 0 = (List.range n).countP p := by
  induction n with
  | zero => rfl
  | succ n ih =>
    rw [Nat.fold_succ, ih, List.range_succ, List.countP_append, List.countP_singleton]
    split
    next => rfl
    next => rfl

namespace Calendar

variable {calendar : Calendar} {dir : Direction} {a b c d e r : Date} {n : Nat}

theorem countWorkdays_eq (calendar : Calendar) (first last : Date) :
    calendar.countWorkdays first last = tally calendar.isWorkday first.serial last.serial := by
  have days : last.serial - (first.serial + 1) + 1 = last.serial - first.serial := by omega
  rw [countWorkdays, fold_eq_countP fun i => calendar.isWorkday ⟨first.serial + i + 1⟩, tally,
    Date.range, List.countP_map, days]
  apply List.countP_congr
  intro i _
  rw [Function.comp_apply, Int.add_right_comm]

theorem workdaysBetween_eq_none (other : a ≠ b) (last : Date.ceiling ≤ max a b) :
    calendar.workdaysBetween a b = none := by
  rw [workdaysBetween, if_neg other, if_pos last]

theorem workdaysBetween_eq (insideA : a.Representable) (insideB : b.Representable)
    (belowA : a < Date.ceiling) (belowB : b < Date.ceiling) :
    calendar.workdaysBetween a b =
      some (calendar.workdayNumber b.serial - calendar.workdayNumber a.serial) := by
  have below : ¬Date.ceiling ≤ max a b := by
    rw [Date.lt_def] at belowA belowB
    rw [Date.le_def, Date.max_serial]
    omega
  rw [workdaysBetween, if_neg below]
  split
  next same => rw [same, Int.sub_self]
  next other =>
    rw [Date.eq_iff_serial] at other
    split
    next before =>
      have counted := @workdayNumber_add calendar a.serial b.serial insideA.1 (Int.le_of_lt before)
      rw [countWorkdays_eq, Option.some.injEq]
      omega
    next after =>
      rw [Date.lt_def] at after
      have counted := @workdayNumber_add calendar b.serial a.serial insideB.1 (by omega)
      rw [countWorkdays_eq, Option.some.injEq]
      omega

theorem workdaysBetween_addWorkdays {n : Int} (inside : d.Representable) (below : d < Date.ceiling)
    (moved : calendar.addWorkdays d n = some r) :
    calendar.workdaysBetween d r =
      some (if n < 0 ∧ calendar.isHoliday d = true then n + 1 else n) := by
  have stops := (walk_eq_some inside).mp moved
  have belowEnd : r < Date.ceiling := by
    by_cases stays : n.natAbs = 0
    next => rwa [stops.stays stays]
    next => exact (workday_bounds stops.inside (stops.workday stays)).2
  rw [workdaysBetween_eq inside stops.inside below belowEnd, workdayNumber_addWorkdays inside moved]

theorem workdayNumber_lt (insideD : d.Representable) (insideE : e.Representable) (before : d < e)
    (workday : calendar.isWorkday e = true) :
    calendar.workdayNumber d.serial < calendar.workdayNumber e.serial := by
  rw [Date.lt_def] at before
  have last := workdayNumber_workday (workday_bounds insideE workday).1 workday
  have between := @workdayNumber_add calendar d.serial (e.serial - 1) insideD.1 (by omega)
  omega

theorem addWorkdays_between (insideD : d.Representable) (insideE : e.Representable)
    (workdayD : calendar.isWorkday d = true) (workdayE : calendar.isWorkday e = true) :
    calendar.addWorkdays d (calendar.workdayNumber e.serial - calendar.workdayNumber d.serial) =
      some e := by
  have boundsD := workday_bounds insideD workdayD
  have boundsE := workday_bounds insideE workdayE
  have firstD := workdayNumber_workday boundsD.1 workdayD
  have firstE := workdayNumber_workday boundsE.1 workdayE
  rw [addWorkdays, walk_eq_some insideD]
  rcases Int.lt_trichotomy d.serial e.serial with before | same | after
  next =>
    have ahead := @workdayNumber_lt calendar d e insideD insideE before workdayE
    have between := @workdayNumber_add calendar d.serial e.serial insideD.1 (by omega)
    rw [if_pos (by omega)]
    refine ⟨insideE, show d.serial ≤ e.serial by omega, ?_, fun stays => by omega, fun _ => workdayE⟩
    simp only [Direction.passed]
    omega
  next =>
    obtain rfl := Date.ext same
    rw [Int.sub_self]
    exact (stops_zero insideD).mpr rfl
  next =>
    have ahead := @workdayNumber_lt calendar e d insideE insideD after workdayD
    have between := @workdayNumber_add calendar (e.serial - 1) (d.serial - 1) (by omega) (by omega)
    rw [if_neg (by omega)]
    refine ⟨insideE, show e.serial ≤ d.serial by omega, ?_, fun stays => by omega, fun _ => workdayE⟩
    simp only [Direction.passed]
    omega

theorem isSome_addWorkdays {n : Int} (inRange : d.InRange) (few : n.natAbs ≤ 10000000) :
    (calendar.addWorkdays d n).isSome = true := by
  obtain ⟨r, found, -⟩ := calendar.addWorkdays_leads n
    (inRange.hasRoom (show (7 * n.natAbs + 30 : Int) ≤ 361000000 by omega))
  rw [found]
  rfl

theorem workdaysBetween_add (inRangeA : a.InRange) (inRangeB : b.InRange) (inRangeC : c.InRange) :
    ∃ x y, calendar.workdaysBetween a b = some x ∧ calendar.workdaysBetween b c = some y ∧
      calendar.workdaysBetween a c = some (x + y) ∧
      calendar.workdaysBetween b a = some (-x) := by
  have counted : ∀ {d e : Date}, d.InRange → e.InRange → calendar.workdaysBetween d e =
      some (calendar.workdayNumber e.serial - calendar.workdayNumber d.serial) := by
    intro d e inRangeD inRangeE
    have below : ∀ {x : Date}, x.InRange → x < Date.ceiling := by
      intro x inRange
      have bounds := inRange.serial_bounds
      rw [Date.lt_def, Date.ceiling_serial]
      omega
    exact workdaysBetween_eq inRangeD.representable inRangeE.representable (below inRangeD)
      (below inRangeE)
  refine ⟨_, _, counted inRangeA inRangeB, counted inRangeB inRangeC, ?_, ?_⟩
  next =>
    rw [counted inRangeA inRangeC, Option.some.injEq]
    omega
  next =>
    rw [counted inRangeB inRangeA, Option.some.injEq]
    omega

/-- Counts of workdays add up, change their sign with the direction, and undo moves by workdays. A
move back from a holiday is counted one short, for the holiday is left out and not the end. -/
theorem workdaysBetween_inverse (calendar : Calendar) :
    (∀ a b c : Date, a.InRange → b.InRange → c.InRange →
      ∃ x y, calendar.workdaysBetween a b = some x ∧ calendar.workdaysBetween b c = some y ∧
        calendar.workdaysBetween a c = some (x + y) ∧
        calendar.workdaysBetween b a = some (-x)) ∧
    (∀ (d : Date) (n : Int), d.Representable → d < Date.ceiling →
      (d.InRange → n.natAbs ≤ 10000000 → (calendar.addWorkdays d n).isSome = true) ∧
      ∀ r, calendar.addWorkdays d n = some r → calendar.workdaysBetween d r =
        some (if n < 0 ∧ calendar.isHoliday d = true then n + 1 else n)) ∧
    (∀ d e : Date, d.Representable → e.Representable → calendar.isWorkday d = true →
      calendar.isWorkday e = true →
      ∃ k, calendar.workdaysBetween d e = some k ∧ calendar.addWorkdays d k = some e) := by
  refine ⟨?_, ?_, ?_⟩
  next => exact fun a b c => workdaysBetween_add
  next =>
    intro d n inside below
    exact ⟨isSome_addWorkdays, fun r => workdaysBetween_addWorkdays inside below⟩
  next =>
    intro d e insideD insideE workdayD workdayE
    exact ⟨_, workdaysBetween_eq insideD insideE (workday_bounds insideD workdayD).2
      (workday_bounds insideE workdayE).2, addWorkdays_between insideD insideE workdayD workdayE⟩

theorem workdaysBetween_inverse_labor_day :
    (Date.on 2023 9 4).InRange ∧ federal.isHoliday (Date.on 2023 9 4) = true ∧
      ∃ r, federal.addWorkdays (Date.on 2023 9 4) (-1) = some r ∧
        federal.workdaysBetween (Date.on 2023 9 4) r = some 0 := by
  have inRange : (Date.on 2023 9 4).InRange := by decide
  have holiday : federal.isHoliday (Date.on 2023 9 4) = true := by decide
  have inverse := (workdaysBetween_inverse federal).2.1 (Date.on 2023 9 4) (-1) (by decide)
    (by decide)
  obtain ⟨r, found⟩ := Option.isSome_iff_exists.mp (inverse.1 inRange (by decide))
  refine ⟨inRange, holiday, r, found, ?_⟩
  rw [inverse.2 r found, if_pos ⟨by decide, holiday⟩]
  rfl

end Calendar

end Almanac
