import Almanac.Proofs.Period.Ordered
import Almanac.Proofs.Workday.Nearest

set_option autoImplicit false

/-!
# Skips as walks

A skip counts the days to its weekday. A walk from day to day that stops at the first day with this
weekday ends on the same date.
-/

namespace Almanac

def Direction.NearestOn (dir : Direction) (weekday : Weekday) (d r : Date) : Prop :=
  match dir with
  | .before => IsGreatest {x | x.weekday = weekday ∧ x < d} r
  | .after => IsLeast {x | x.weekday = weekday ∧ d < x} r

theorem Date.HasRoom.room_pos {d : Date} {days : Int} (room : d.HasRoom days) (some : 0 < days)
    (dir : Direction) : 0 < dir.room d := by
  unfold Date.HasRoom at room
  cases dir with
  | before => simp only [Direction.room]; omega
  | after => simp only [Direction.room]; omega

namespace Skip

variable {d x : Date}

def stopsAt (skip : Skip) (x : Date) : Bool :=
  x.weekday == skip.weekday

def start (skip : Skip) (d : Date) : Date :=
  if skip.inclusive then d else skip.direction.step d

def walk (skip : Skip) (d : Date) : Option Date :=
  skip.direction.seek skip.stopsAt (skip.start d)

theorem stopsAt_iff (skip : Skip) :
    skip.stopsAt x = true ↔ (skip.weekday.sundayIndex : Int) = (x.serial + 4) % 7 := by
  rw [stopsAt, beq_iff_eq, Date.weekday_eq_iff]

theorem target_near (skip : Skip) (n : Int) : n - 7 ≤ skip.target n ∧ skip.target n ≤ n + 7 := by
  unfold target
  split <;> omega

theorem apply_serial (skip : Skip) (room : d.HasRoom 7) :
    (skip.apply d).serial = skip.target d.serial := by
  have near := skip.target_near d.serial
  unfold Date.HasRoom at room
  rw [apply_eq]
  simp only [Date.saturate]
  omega

theorem apply_near (skip : Skip) (room : d.HasRoom 7) :
    ((skip.apply d).serial - d.serial).natAbs ≤ 7 := by
  have near := skip.target_near d.serial
  have moved := skip.apply_serial room
  omega

theorem stopsAt_apply (skip : Skip) (room : d.HasRoom 7) :
    skip.stopsAt (skip.apply d) = true := by
  have index := skip.weekday.sundayIndex_lt
  rw [stopsAt_iff, skip.apply_serial room]
  unfold target
  split <;> omega

theorem apply_isFirst (skip : Skip) (room : d.HasRoom 7) :
    skip.direction.IsFirst skip.stopsAt (skip.start d) (skip.apply d) := by
  have moved := skip.apply_serial room
  have has := skip.stopsAt_apply room
  have next : d.next.serial = d.serial + 1 := room.plus_serial (by decide)
  have previous : d.previous.serial = d.serial - 1 := room.minus_serial (by decide)
  refine ⟨?_, has, fun x reaches stops => ?_⟩
  next =>
    obtain ⟨_ | _, _ | _, weekday⟩ := skip
    all_goals
      simp only [start, target, Direction.step, Direction.Reaches, Date.le_def, if_true,
        Bool.false_eq_true, if_false] at moved ⊢
      omega
  next =>
    rw [stopsAt_iff] at stops
    obtain ⟨_ | _, _ | _, weekday⟩ := skip
    all_goals
      simp only [start, target, Direction.step, Direction.Reaches, Date.le_def, if_true,
        Bool.false_eq_true, if_false] at moved reaches stops ⊢
      omega

theorem walk_eq_apply (skip : Skip) (room : d.HasRoom 14) : skip.walk d = some (skip.apply d) := by
  have inside : (skip.start d).Representable := by
    unfold start
    split
    next => exact room.representable (by decide)
    next => exact skip.direction.representable_step d
  have near := skip.apply_near (room.mono (by decide))
  have there : (skip.apply d).HasRoom 7 := room.near (by omega)
  exact (Direction.seek_eq_some inside).mpr
    ⟨there.representable (by decide), skip.apply_isFirst (room.mono (by decide))⟩

theorem apply_of_weekday (skip : Skip) (room : d.HasRoom 7) (inclusive : skip.inclusive = true)
    (here : d.weekday = skip.weekday) : skip.apply d = d := by
  have first := skip.apply_isFirst room
  rw [start, if_pos inclusive] at first
  have stops : skip.stopsAt d = true := beq_iff_eq.mpr here
  exact Direction.reaches_antisymm (first.least d (.refl _ d) stops) first.reaches

theorem apply_nearestOn (skip : Skip) (room : d.HasRoom 7)
    (moves : ¬(skip.inclusive = true ∧ d.weekday = skip.weekday)) :
    skip.direction.NearestOn skip.weekday d (skip.apply d) := by
  have first := skip.apply_isFirst room
  have beyond (x : Date) (stops : skip.stopsAt x = true) :
      skip.direction.Reaches (skip.start d) x ↔ skip.direction.Reaches d x ∧ x ≠ d := by
    unfold start
    split
    next inclusive =>
      refine (and_iff_left ?_).symm
      rintro rfl
      exact moves ⟨inclusive, beq_iff_eq.mp stops⟩
    next =>
      exact Direction.reaches_step (room.representable (by decide))
        (room.room_pos (by decide) skip.direction)
  have strict : skip.direction.IsFirst (fun x => skip.stopsAt x && x != d) d (skip.apply d) := by
    obtain ⟨reaches, other⟩ := (beyond _ first.has).mp first.reaches
    refine ⟨reaches, by simp [first.has, other], fun x ahead has => ?_⟩
    simp only [Bool.and_eq_true, bne_iff_ne] at has
    exact first.least x ((beyond x has.1).mpr ⟨ahead, has.2⟩) has.1
  unfold Direction.NearestOn
  split
  next back =>
    rw [back, Direction.isFirst_strictly_before] at strict
    simpa only [stopsAt, beq_iff_eq] using strict
  next ahead =>
    rw [ahead, Direction.isFirst_strictly_after] at strict
    simpa only [stopsAt, beq_iff_eq] using strict

theorem apply_apply (skip : Skip) (room : d.HasRoom 14) :
    (skip.apply d).daysTo (skip.apply (skip.apply d)) =
      if skip.inclusive then 0
      else match skip.direction with
        | .before => -7
        | .after => 7 := by
  have near := skip.apply_near (room.mono (by decide))
  have there : (skip.apply d).HasRoom 7 := room.near (by omega)
  have stops := skip.stopsAt_iff.mp (skip.stopsAt_apply (room.mono (by decide)))
  rw [Date.daysTo, skip.apply_serial there]
  obtain ⟨_ | _, _ | _, weekday⟩ := skip
  all_goals
    simp only [target, if_true, Bool.false_eq_true, if_false] at stops ⊢
    omega

/-- A skip comes to the date that a walk from day to day stops at: the date itself if it counts and
has the weekday, and else the nearest date with the weekday on the side of the skip. Skips keep the
order of dates, and the same skip once more stays or goes on by a week. -/
theorem apply_walks (skip : Skip) {d : Date} (inland : d.Inland) :
    skip.walk d = some (skip.apply d) ∧
    (skip.inclusive = true → d.weekday = skip.weekday → skip.apply d = d) ∧
    (¬(skip.inclusive = true ∧ d.weekday = skip.weekday) →
      skip.direction.NearestOn skip.weekday d (skip.apply d)) ∧
    ((skip.apply d).serial - d.serial).natAbs ≤ 7 ∧
    (∀ e, d ≤ e → skip.apply d ≤ skip.apply e) ∧
    (skip.inclusive = true → skip.apply (skip.apply d) = skip.apply d) ∧
    (skip.inclusive = false →
      (skip.apply d).daysTo (skip.apply (skip.apply d)) = match skip.direction with
        | .before => -7
        | .after => 7) := by
  have room : d.HasRoom 14 := inland.hasRoom.mono (by decide)
  have near : d.HasRoom 7 := room.mono (by decide)
  have again := skip.apply_apply room
  refine ⟨skip.walk_eq_apply room, skip.apply_of_weekday near, skip.apply_nearestOn near,
    skip.apply_near near, fun e later => skip.apply_mono later, ?_, ?_⟩
  next =>
    intro inclusive
    rw [if_pos inclusive] at again
    exact Date.ext (Int.sub_eq_zero.mp again)
  next =>
    intro exclusive
    rwa [exclusive, if_neg Bool.false_ne_true] at again

theorem apply_walks_thanksgiving :
    (Date.on 2024 11 28).Inland ∧
      (⟨.before, false, .thursday⟩ : Skip).walk (Date.on 2024 11 28) =
        some (Date.on 2024 11 21) ∧
      Direction.NearestOn .before .thursday (Date.on 2024 11 28) (Date.on 2024 11 21) ∧
      (Date.on 2024 11 21).daysTo
        ((⟨.before, false, .thursday⟩ : Skip).apply (Date.on 2024 11 21)) = -7 := by
  have inland : (Date.on 2024 11 28).Inland := by decide
  have moves : ¬(false = true ∧ (Date.on 2024 11 28).weekday = .thursday) := by decide
  have walks := apply_walks ⟨.before, false, .thursday⟩ inland
  exact ⟨inland, walks.1, walks.2.2.1 moves, walks.2.2.2.2.2.2 rfl⟩

end Skip

end Almanac
