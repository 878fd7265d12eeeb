import Almanac.Proofs.Workday.Search
import Mathlib.Order.Bounds.Defs

set_option autoImplicit false

/-!
# The nearest workdays

Holidays never pile up, so a workday lies within a week of every date that is not next to the days
at which adding stops, and the searches find the nearest one.
-/

namespace Almanac

namespace Direction

variable {p : Date → Bool} {d r : Date}

theorem isFirst_before : IsFirst .before p d r ↔ IsGreatest {x | p x = true ∧ x ≤ d} r := by
  constructor
  next => exact fun first => ⟨⟨first.has, first.reaches⟩, fun x h => first.least x h.2 h.1⟩
  next =>
    intro greatest
    exact ⟨greatest.1.2, greatest.1.1, fun x reaches has => greatest.2 ⟨has, reaches⟩⟩

theorem isFirst_after : IsFirst .after p d r ↔ IsLeast {x | p x = true ∧ d ≤ x} r := by
  constructor
  next => exact fun first => ⟨⟨first.has, first.reaches⟩, fun x h => first.least x h.2 h.1⟩
  next =>
    intro least
    exact ⟨least.1.2, least.1.1, fun x reaches has => least.2 ⟨has, reaches⟩⟩

theorem isFirst_strictly_before :
    IsFirst .before (fun x => p x && x != d) d r ↔ IsGreatest {x | p x = true ∧ x < d} r := by
  have same : {x | (p x && x != d) = true ∧ x ≤ d} = {x | p x = true ∧ x < d} := by
    ext x
    change (p x && x != d) = true ∧ x ≤ d ↔ p x = true ∧ x < d
    rw [Bool.and_eq_true, bne_iff_ne, and_assoc, Ne, Date.eq_iff_serial, Date.le_def, Date.lt_def]
    apply and_congr_right'
    omega
  rw [isFirst_before, same]

theorem isFirst_strictly_after :
    IsFirst .after (fun x => p x && x != d) d r ↔ IsLeast {x | p x = true ∧ d < x} r := by
  have same : {x | (p x && x != d) = true ∧ d ≤ x} = {x | p x = true ∧ d < x} := by
    ext x
    change (p x && x != d) = true ∧ d ≤ x ↔ p x = true ∧ d < x
    rw [Bool.and_eq_true, bne_iff_ne, and_assoc, Ne, Date.eq_iff_serial, Date.le_def, Date.lt_def]
    apply and_congr_right'
    omega
  rw [isFirst_after, same]

end Direction

namespace Calendar

variable {d : Date}

theorem nearestWorkday_isFirst (calendar : Calendar) (dir : Direction) (room : d.HasRoom 30) :
    ∃ r, calendar.nearestWorkday dir d = some r ∧ dir.IsFirst calendar.isWorkday d r ∧
      (r.serial - d.serial).natAbs < calendar.cycle := by
  have inside := room.representable (by decide)
  obtain ⟨x, beyond, near, workday⟩ := calendar.workday_within dir (room.mono (by decide))
  have there : x.Representable := by
    have cycle := calendar.cycle_bounds
    have thereRoom : x.HasRoom 20 := room.near (by omega)
    exact thereRoom.representable (by decide)
  obtain ⟨r, found, -⟩ := Direction.seek_finds inside beyond there workday
  have first := ((Direction.seek_eq_some inside).mp found).2
  have between := first.reaches.near (first.least x beyond workday)
  exact ⟨r, found, first, by omega⟩

theorem followingWorkday_isFirst (calendar : Calendar) (dir : Direction) (room : d.HasRoom 31) :
    ∃ r, calendar.followingWorkday dir d = some r ∧
      dir.IsFirst (fun x => calendar.isWorkday x && x != d) d r ∧
      (r.serial - d.serial).natAbs ≤ calendar.cycle := by
  have inside := room.representable (by decide)
  have moved := step_serial dir (room.mono (by decide))
  have stepRoom : (dir.step d).HasRoom 30 := room.near (by omega)
  obtain ⟨r, found, -, near⟩ := calendar.nearestWorkday_isFirst dir stepRoom
  exact ⟨r, found, ((followingWorkday_eq_some inside).mp found).2, by omega⟩

theorem walk_one (calendar : Calendar) (dir : Direction) (d : Date) :
    calendar.walk dir 1 d = calendar.followingWorkday dir d :=
  Option.bind_fun_some _

/-- The workday nearest to a date in either direction, the date itself included or left out, is at
most one cycle of days away. -/
theorem nearest_workdays (calendar : Calendar) {d : Date} (inland : d.Inland) :
    (∃ k : Nat, k < calendar.cycle ∧ calendar.isWorkday (d.plus k) = true) ∧
    (∃ r, calendar.nearestWorkday .after d = some r ∧
      IsLeast {x | calendar.isWorkday x = true ∧ d ≤ x} r ∧ d.daysTo r ≤ calendar.cycle - 1) ∧
    (∃ r, calendar.nearestWorkday .before d = some r ∧
      IsGreatest {x | calendar.isWorkday x = true ∧ x ≤ d} r ∧
      r.daysTo d ≤ calendar.cycle - 1) ∧
    (∃ r, calendar.followingWorkday .after d = some r ∧ calendar.addWorkdays d 1 = some r ∧
      IsLeast {x | calendar.isWorkday x = true ∧ d < x} r ∧ d.daysTo r ≤ calendar.cycle) ∧
    (∃ r, calendar.followingWorkday .before d = some r ∧ calendar.addWorkdays d (-1) = some r ∧
      IsGreatest {x | calendar.isWorkday x = true ∧ x < d} r ∧ r.daysTo d ≤ calendar.cycle) := by
  have room := inland.hasRoom
  have nearest := fun dir => calendar.nearestWorkday_isFirst dir (room.mono (by decide))
  have following := fun dir => calendar.followingWorkday_isFirst dir (room.mono (by decide))
  refine ⟨?_, ?_, ?_, ?_, ?_⟩
  next =>
    obtain ⟨k, inCycle, workday⟩ := calendar.exists_workday (room.mono (by decide))
    have cycle := calendar.cycle_bounds
    have there : d.plus k = ⟨d.serial + k⟩ := Date.ext (room.plus_serial (by omega))
    exact ⟨k, inCycle, there ▸ workday⟩
  next =>
    obtain ⟨r, found, first, near⟩ := nearest .after
    exact ⟨r, found, Direction.isFirst_after.mp first, by unfold Date.daysTo; omega⟩
  next =>
    obtain ⟨r, found, first, near⟩ := nearest .before
    exact ⟨r, found, Direction.isFirst_before.mp first, by unfold Date.daysTo; omega⟩
  next =>
    obtain ⟨r, found, first, near⟩ := following .after
    exact ⟨r, found, (calendar.walk_one .after d).trans found,
      Direction.isFirst_strictly_after.mp first, by unfold Date.daysTo; omega⟩
  next =>
    obtain ⟨r, found, first, near⟩ := following .before
    exact ⟨r, found, (calendar.walk_one .before d).trans found,
      Direction.isFirst_strictly_before.mp first, by unfold Date.daysTo; omega⟩

theorem nearest_workdays_closed_week :
    (Date.on 2001 9 11).Inland ∧
      ∃ r, exchange.nearestWorkday .after (Date.on 2001 9 11) = some r ∧
        IsLeast {x | exchange.isWorkday x = true ∧ Date.on 2001 9 11 ≤ x} r ∧
        (Date.on 2001 9 11).daysTo r ≤ 6 := by
  have inland : (Date.on 2001 9 11).Inland := by decide
  exact ⟨inland, (exchange.nearest_workdays inland).2.1⟩

end Calendar

end Almanac
