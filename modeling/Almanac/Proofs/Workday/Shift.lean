import Almanac.Proofs.Workday.Nearest

set_option autoImplicit false

/-!
# Shifts in the order of workdays

The workdays of a calendar are numbered in their order, and moving a workday by some workdays adds
to its number.
-/

namespace Almanac.Calendar

/-- The place of a day among the workdays since the first representable day. -/
def workdayNumber (calendar : Calendar) (serial : Int) : Int :=
  tally calendar.isWorkday Date.floor.serial serial

section

variable {calendar : Calendar} {dir : Direction} {d r a b : Date} {n : Nat}

theorem workdayNumber_add {first last : Int} (inside : Date.floor.serial ≤ first)
    (h : first ≤ last) :
    calendar.workdayNumber last =
      calendar.workdayNumber first + tally calendar.isWorkday first last := by
  unfold workdayNumber
  rw [← tally_add inside h]
  omega

theorem workdayNumber_workday {serial : Int} (inside : Date.floor.serial < serial)
    (workday : calendar.isWorkday ⟨serial⟩ = true) :
    calendar.workdayNumber serial = calendar.workdayNumber (serial - 1) + 1 := by
  rw [@workdayNumber_add calendar (serial - 1) serial (by omega) (by omega), tally_one workday]
  rfl

theorem workdayNumber_injective (insideA : Date.floor.serial < a.serial)
    (insideB : Date.floor.serial < b.serial) (workdayA : calendar.isWorkday a = true)
    (workdayB : calendar.isWorkday b = true)
    (same : calendar.workdayNumber a.serial = calendar.workdayNumber b.serial) : a = b := by
  have lastA := workdayNumber_workday insideA workdayA
  have lastB := workdayNumber_workday insideB workdayB
  rw [Date.eq_iff_serial]
  rcases Int.lt_trichotomy a.serial b.serial with before | same | after
  next =>
    -- The later of two workdays has a number of its own, above those of all days before it.
    have between := @workdayNumber_add calendar a.serial (b.serial - 1) (by omega) (by omega)
    omega
  next => exact same
  next =>
    have between := @workdayNumber_add calendar b.serial (a.serial - 1) (by omega) (by omega)
    omega

theorem workday_bounds (inside : d.Representable) (workday : calendar.isWorkday d = true) :
    Date.floor.serial < d.serial ∧ d.serial < Date.ceiling.serial := by
  have other : ∀ dir : Direction, d.serial ≠ dir.limit.serial := by
    intro dir same
    rw [Date.ext same, calendar.isWorkday_limit] at workday
    cases workday
  have notFirst : d.serial ≠ Date.floor.serial := other .before
  have notLast : d.serial ≠ Date.ceiling.serial := other .after
  simp only [Date.Representable, Date.le_def] at inside
  omega

theorem workdayNumber_holiday (inside : Date.floor < d) (holiday : calendar.isWorkday d = false) :
    calendar.workdayNumber d.serial = calendar.workdayNumber (d.serial - 1) := by
  have before : Date.floor.serial ≤ d.serial - 1 := Int.le_sub_one_of_lt inside
  rw [workdayNumber_add before (show d.serial - 1 ≤ d.serial by omega), tally_day, holiday]
  exact Int.add_zero _

-- The place of the end of a move in the order of workdays. The first workday before a holiday has
-- the place of the holiday itself.
theorem workdayNumber_addWorkdays {n : Int} (inside : d.Representable)
    (moved : calendar.addWorkdays d n = some r) :
    calendar.workdayNumber r.serial - calendar.workdayNumber d.serial =
      if n < 0 ∧ calendar.isHoliday d = true then n + 1 else n := by
  have stops := (walk_eq_some inside).mp moved
  have passed := stops.passed
  have reaches := stops.reaches
  by_cases forward : 0 ≤ n
  next =>
    rw [if_pos forward] at passed reaches
    have between := @workdayNumber_add calendar d.serial r.serial inside.1 reaches
    rw [if_neg (by omega)]
    simp only [Direction.passed] at passed
    omega
  next =>
    rw [if_neg forward] at passed reaches
    have workday := stops.workday (by omega)
    have bounds := workday_bounds stops.inside workday
    -- At least one workday is passed, so the end lies before the start.
    have back : r.serial < d.serial := by
      have notStart : r.serial ≠ d.serial := by
        intro same
        rw [Date.ext same, Direction.passed_self] at passed
        omega
      have upTo : r.serial ≤ d.serial := reaches
      omega
    have last := workdayNumber_workday bounds.1 workday
    have between := @workdayNumber_add calendar (r.serial - 1) (d.serial - 1) (by omega) (by omega)
    simp only [Direction.passed] at passed
    cases holiday : calendar.isHoliday d with
    | true =>
      have first := @workdayNumber_holiday calendar d (show Date.floor.serial < d.serial by omega)
        (by rw [isWorkday, holiday]; rfl)
      rw [if_pos ⟨by omega, rfl⟩]
      omega
    | false =>
      have first := @workdayNumber_workday calendar d.serial (by omega)
        (isWorkday_iff.mpr holiday)
      rw [if_neg (by simp)]
      omega

end

structure Leads (calendar : Calendar) (dir : Direction) (n : Nat) (d r : Date) : Prop where
  reaches : dir.Reaches d r
  near : (r.serial - d.serial).natAbs ≤ 7 * n
  passed : dir.passed calendar.isWorkday d r = n
  workday : n ≠ 0 → calendar.isWorkday r = true

theorem walk_leads (calendar : Calendar) (dir : Direction) (n : Nat) {d : Date}
    (room : d.HasRoom (7 * n + 30)) :
    ∃ r, calendar.walk dir n d = some r ∧ calendar.Leads dir n d r := by
  have reached : ∃ r, calendar.walk dir n d = some r ∧ (r.serial - d.serial).natAbs ≤ 7 * n := by
    induction n generalizing d with
    | zero => exact ⟨d, rfl, by omega⟩
    | succ n ih =>
      have cycle := calendar.cycle_bounds
      -- Each step costs a week at most, so the room for the other steps is left.
      obtain ⟨m, found, -, near⟩ := calendar.followingWorkday_isFirst dir (room.mono (by omega))
      obtain ⟨r, walked, rest⟩ := @ih m (room.near (by omega))
      exact ⟨r, by rw [walk, found, Option.bind_some, walked], by omega⟩
  obtain ⟨r, walked, near⟩ := reached
  have stops := (walk_eq_some (room.representable (by omega))).mp walked
  exact ⟨r, walked, stops.reaches, near, stops.passed, stops.workday⟩

theorem addWorkdays_leads (calendar : Calendar) (n : Int) {d : Date}
    (room : d.HasRoom (7 * n.natAbs + 30)) :
    ∃ r, calendar.addWorkdays d n = some r ∧
      calendar.Leads (if 0 ≤ n then .after else .before) n.natAbs d r :=
  calendar.walk_leads _ n.natAbs room

theorem addWorkdays_number {calendar : Calendar} {d : Date} {n : Int}
    (start : calendar.isWorkday d = true) (room : d.HasRoom (7 * n.natAbs + 30)) :
    ∃ r, calendar.addWorkdays d n = some r ∧ calendar.isWorkday r = true ∧
      (r.serial - d.serial).natAbs ≤ 7 * n.natAbs ∧
      calendar.workdayNumber r.serial = calendar.workdayNumber d.serial + n := by
  have inside := room.representable (by omega)
  obtain ⟨r, found, leads⟩ := calendar.addWorkdays_leads n room
  have number := workdayNumber_addWorkdays inside found
  have workday : calendar.isWorkday r = true := by
    by_cases stays : n.natAbs = 0
    next =>
      have stops := (walk_eq_some inside).mp found
      rwa [stops.stays stays]
    next => exact leads.workday stays
  rw [if_neg (by simp [isWorkday_iff.mp start])] at number
  exact ⟨r, found, workday, leads.near, by omega⟩

theorem addWorkdays_add {calendar : Calendar} {d : Date} (inRange : d.InRange)
    (start : calendar.isWorkday d = true) {a b : Int} (fewA : a.natAbs ≤ 10000000)
    (fewB : b.natAbs ≤ 10000000) :
    ∃ r, calendar.addWorkdays d (a + b) = some r ∧
      (calendar.addWorkdays d a).bind (calendar.addWorkdays · b) = some r := by
  have bounds := inRange.serial_bounds
  have room : ∀ e : Date, (e.serial - d.serial).natAbs ≤ 70000000 → e.HasRoom 210000000 := by
    intro e near
    simp only [Date.HasRoom, Date.floor_serial, Date.ceiling_serial]
    omega
  have startRoom := room d (by omega)
  obtain ⟨x, foundX, workdayX, nearX, numberX⟩ :=
    @addWorkdays_number calendar d a start (startRoom.mono (by omega))
  have middleRoom := room x (by omega)
  obtain ⟨y, foundY, workdayY, nearY, numberY⟩ :=
    @addWorkdays_number calendar x b workdayX (middleRoom.mono (by omega))
  obtain ⟨r, found, workday, near, number⟩ :=
    @addWorkdays_number calendar d (a + b) start (startRoom.mono (by omega))
  -- The numbers of both ends are the number of the start plus both moves.
  have same : y = r := by
    apply @workdayNumber_injective calendar y r _ _ workdayY workday
    next => omega
    next => rw [Date.floor_serial]; omega
    next => rw [Date.floor_serial]; omega
  refine ⟨r, found, ?_⟩
  rw [foundX, Option.bind_some, foundY, same]

theorem addWorkdays_passes (calendar : Calendar) {d : Date} (inRange : d.InRange) {n : Int}
    (notZero : n ≠ 0) (few : n.natAbs ≤ 10000000) :
    ∃ r, calendar.addWorkdays d n = some r ∧ calendar.isWorkday r = true ∧
      n.natAbs ≤ (r.serial - d.serial).natAbs ∧
      (0 < n → d < r ∧ (Date.range d.next r).countP calendar.isWorkday = n.natAbs) ∧
      (n < 0 → r < d ∧ (Date.range r d.previous).countP calendar.isWorkday = n.natAbs) := by
  have bounds := inRange.serial_bounds
  have room : d.HasRoom (7 * n.natAbs + 30) := by
    simp only [Date.HasRoom, Date.floor_serial, Date.ceiling_serial]
    omega
  obtain ⟨r, found, leads⟩ := calendar.addWorkdays_leads n room
  have passed := leads.passed
  have reaches := leads.reaches
  have workday := leads.workday (by omega)
  have next : d.next = ⟨d.serial + 1⟩ := Date.ext (room.plus_serial (by omega))
  have previous : d.previous = ⟨d.serial - 1⟩ := Date.ext (room.minus_serial (by omega))
  rcases Int.lt_or_gt_of_ne notZero with back | forward
  next =>
    rw [if_neg (by omega)] at passed reaches
    have most := tally_le (p := calendar.isWorkday) (Int.sub_le_sub_right reaches 1)
    rw [Direction.passed] at passed
    rw [passed] at most
    rw [tally, Int.sub_add_cancel, ← previous] at passed
    refine ⟨r, found, workday, by omega, fun forward => by omega, fun _ => ⟨?_, passed⟩⟩
    rw [Date.lt_def]
    omega
  next =>
    rw [if_pos (by omega)] at passed reaches
    have most := tally_le (p := calendar.isWorkday) reaches
    rw [Direction.passed] at passed
    rw [passed] at most
    rw [tally, ← next] at passed
    refine ⟨r, found, workday, by omega, fun _ => ⟨?_, passed⟩, fun back => by omega⟩
    rw [Date.lt_def]
    omega

/-- Moving by workdays is the shift in their order. The result is the workday with as many
workdays from the date up to it, and the moves of a workday add up. -/
theorem addWorkdays_shift (calendar : Calendar) {d : Date} (inRange : d.InRange) :
    (∀ n : Int, n ≠ 0 → n.natAbs ≤ 10000000 →
      ∃ r, calendar.addWorkdays d n = some r ∧ calendar.isWorkday r = true ∧
        n.natAbs ≤ (r.serial - d.serial).natAbs ∧
        (0 < n → d < r ∧ (Date.range d.next r).countP calendar.isWorkday = n.natAbs) ∧
        (n < 0 → r < d ∧ (Date.range r d.previous).countP calendar.isWorkday = n.natAbs)) ∧
    (calendar.isWorkday d = true → ∀ a b : Int, a.natAbs ≤ 10000000 → b.natAbs ≤ 10000000 →
      (∃ r, calendar.addWorkdays d (a + b) = some r ∧
        (calendar.addWorkdays d a).bind (calendar.addWorkdays · b) = some r) ∧
      (calendar.addWorkdays d a).bind (calendar.addWorkdays · (-a)) = some d) := by
  constructor
  next => exact fun n notZero few => calendar.addWorkdays_passes inRange notZero few
  next =>
    intro start a b fewA fewB
    refine ⟨addWorkdays_add inRange start fewA fewB, ?_⟩
    obtain ⟨r, stays, returns⟩ :=
      @addWorkdays_add calendar d inRange start a (-a) fewA (by omega)
    rw [Int.add_right_neg] at stays
    rw [returns, ← stays]
    rfl

theorem addWorkdays_shift_over_closure :
    (Date.on 2001 9 10).InRange ∧ exchange.isWorkday (Date.on 2001 9 10) = true ∧
      (exchange.addWorkdays (Date.on 2001 9 10) 1).bind (exchange.addWorkdays · (-1)) =
        some (Date.on 2001 9 10) := by
  have inRange : (Date.on 2001 9 10).InRange := by decide
  have workday : exchange.isWorkday (Date.on 2001 9 10) = true := by decide
  have shift := (exchange.addWorkdays_shift inRange).2 workday 1 0 (by decide) (by decide)
  exact ⟨inRange, workday, shift.2⟩

end Almanac.Calendar
