import Almanac.Proofs.Workday.Walk

set_option autoImplicit false

/-!
# Searches up to the days at which adding stops

A search finds the first date of a kind whenever a representable date of the kind lies ahead, and a
walk over workdays has an end exactly when it has as many workdays ahead as it is long.
-/

namespace Almanac

namespace Direction

structure IsFirst (dir : Direction) (p : Date → Bool) (d r : Date) : Prop where
  reaches : dir.Reaches d r
  has : p r = true
  least : ∀ x, dir.Reaches d x → p x = true → dir.Reaches r x

def limit : Direction → Date
  | .before => Date.floor
  | .after => Date.ceiling

section

variable {dir : Direction} {p : Date → Bool} {a b d r x : Date}

theorem reaches_total (dir : Direction) (a b : Date) : dir.Reaches a b ∨ dir.Reaches b a := by
  cases dir with
  | before => exact Int.le_total b.serial a.serial
  | after => exact Int.le_total a.serial b.serial

theorem representable_limit (dir : Direction) : dir.limit.Representable := by
  cases dir <;> decide

theorem reaches_limit (inside : d.Representable) : dir.Reaches d dir.limit := by
  cases dir with
  | before => exact inside.1
  | after => exact inside.2

theorem room_eq_zero (inside : d.Representable) : dir.room d = 0 ↔ d = dir.limit := by
  simp only [Date.Representable, Date.le_def, Date.floor_serial, Date.ceiling_serial] at inside
  cases dir with
  | before => simp only [room, limit, Date.eq_iff_serial, Date.floor_serial]; omega
  | after => simp only [room, limit, Date.eq_iff_serial, Date.ceiling_serial]; omega

theorem step_limit (dir : Direction) : dir.step dir.limit = dir.limit := by
  cases dir <;> rfl

theorem step_eq_self (inside : d.Representable) (full : ¬0 < dir.room d) : dir.step d = d := by
  rw [(room_eq_zero inside).mp (Nat.eq_zero_of_not_pos full), step_limit]

theorem IsFirst.eq (first : dir.IsFirst p d r) (other : dir.IsFirst p d x) : r = x :=
  reaches_antisymm (first.least x other.reaches other.has) (other.least r first.reaches first.has)

theorem seek_sound (inside : d.Representable) (found : dir.seek p d = some r) :
    r.Representable ∧ dir.Reaches d r ∧ p r = true := by
  induction d using Direction.seek.induct dir p with
  | case1 d has =>
    rw [seek, if_pos has] at found
    obtain rfl := Option.some.inj found
    exact ⟨inside, Reaches.refl dir d, has⟩
  | case2 d notHere free ih =>
    rw [seek, if_neg notHere, if_pos free] at found
    obtain ⟨there, beyond, has⟩ := ih (representable_step dir d) found
    exact ⟨there, ((reaches_step inside free).mp beyond).1, has⟩
  | case3 d notHere full =>
    rw [seek, if_neg notHere, if_neg full] at found
    cases found

theorem seek_eq_some (inside : d.Representable) :
    dir.seek p d = some r ↔ r.Representable ∧ dir.IsFirst p d r := by
  have finds : ∀ x, x.Representable → dir.Reaches d x → p x = true →
      ∃ e, dir.seek p d = some e ∧ p e = true ∧ dir.Reaches e x ∧ dir.IsFirst p d e := by
    intro x there beyond has
    obtain ⟨e, found, holds, reaches, short, first⟩ := seek_finds inside beyond there has
    refine ⟨e, found, holds, short, reaches, holds, ?_⟩
    intro y beyond has
    rcases reaches_total dir e y with after | before
    next => exact after
    next =>
      -- No date before the one found has the property, so this one is it.
      by_cases same : y = e
      next => exact same ▸ Reaches.refl dir y
      next => exact absurd has (by simp [first y beyond before same])
  constructor
  next =>
    intro found
    obtain ⟨there, beyond, has⟩ := seek_sound inside found
    obtain ⟨e, found', -, -, first⟩ := finds r there beyond has
    rw [found] at found'
    cases found'
    exact ⟨there, first⟩
  next =>
    rintro ⟨there, first⟩
    obtain ⟨e, found, -, -, isFirst⟩ := finds r there first.reaches first.has
    rw [found, isFirst.eq first]

theorem seek_eq_none (inside : d.Representable) :
    dir.seek p d = none ↔ ∀ x, x.Representable → dir.Reaches d x → p x = false := by
  constructor
  next =>
    intro nothing x there beyond
    cases has : p x with
    | false => rfl
    | true =>
      obtain ⟨r, found, -⟩ := seek_finds inside beyond there has
      rw [nothing] at found
      cases found
  next =>
    intro without
    cases found : dir.seek p d with
    | none => rfl
    | some r =>
      obtain ⟨there, beyond, has⟩ := seek_sound inside found
      rw [without r there beyond] at has
      cases has

theorem representable_between (inside : a.Representable) (there : b.Representable)
    (beyond : dir.Reaches a x) (short : dir.Reaches x b) : x.Representable := by
  cases dir with
  | before => exact ⟨Int.le_trans there.1 short, Int.le_trans beyond inside.2⟩
  | after => exact ⟨Int.le_trans inside.1 beyond, Int.le_trans short there.2⟩

theorem passed_eq_zero
    (without : ∀ x, dir.Reaches a x → dir.Reaches x b → x ≠ a → p x = false) :
    dir.passed p a b = 0 := by
  cases dir with
  | before =>
    apply tally_eq_zero
    intro s low high
    exact without ⟨s⟩ (show s ≤ a.serial by omega) (show b.serial ≤ s by omega)
      (mt (congrArg Date.serial) (show s ≠ a.serial by omega))
  | after =>
    apply tally_eq_zero
    intro s low high
    exact without ⟨s⟩ (show a.serial ≤ s by omega) (show s ≤ b.serial by omega)
      (mt (congrArg Date.serial) (show s ≠ a.serial by omega))

theorem passed_pos (reaches : dir.Reaches a b) (other : b ≠ a) (has : p b = true) :
    0 < dir.passed p a b := by
  rw [Ne, Date.eq_iff_serial] at other
  cases dir with
  | before =>
    have back : b.serial ≤ a.serial := reaches
    rw [passed, ← tally_add (show b.serial - 1 ≤ b.serial by omega) (by omega), tally_one has]
    omega
  | after =>
    have forward : a.serial ≤ b.serial := reaches
    rw [passed, ← tally_add (show a.serial ≤ b.serial - 1 by omega) (by omega), tally_one has]
    omega

end

end Direction

namespace Calendar

variable {calendar : Calendar} {dir : Direction} {d m r x : Date} {n : Nat}

theorem isWorkday_limit (calendar : Calendar) (dir : Direction) :
    calendar.isWorkday dir.limit = false := by
  cases calendar <;> cases dir <;> decide

-- At the last day a step leads nowhere, but that day is no workday.
theorem reaches_step_workday (inside : d.Representable) (workday : calendar.isWorkday x = true) :
    dir.Reaches (dir.step d) x ↔ dir.Reaches d x ∧ x ≠ d := by
  by_cases free : 0 < dir.room d
  next => exact Direction.reaches_step inside free
  next =>
    have last : d = dir.limit := (Direction.room_eq_zero inside).mp (Nat.eq_zero_of_not_pos free)
    have other : x ≠ dir.limit := by
      rintro rfl
      rw [calendar.isWorkday_limit] at workday
      cases workday
    rw [last, Direction.step_limit]
    exact (and_iff_left other).symm

theorem followingWorkday_eq_some (inside : d.Representable) :
    calendar.followingWorkday dir d = some r ↔
      r.Representable ∧ dir.IsFirst (fun x => calendar.isWorkday x && x != d) d r := by
  rw [followingWorkday, nearestWorkday, Direction.seek_eq_some (dir.representable_step d)]
  apply and_congr_right'
  constructor
  next =>
    intro first
    obtain ⟨beyond, other⟩ := (reaches_step_workday inside first.has).mp first.reaches
    refine ⟨beyond, by simp [first.has, other], fun x reaches has => ?_⟩
    simp only [Bool.and_eq_true, bne_iff_ne] at has
    exact first.least x ((reaches_step_workday inside has.1).mpr ⟨reaches, has.2⟩) has.1
  next =>
    intro first
    have has := first.has
    simp only [Bool.and_eq_true, bne_iff_ne] at has
    refine ⟨(reaches_step_workday inside has.1).mpr ⟨first.reaches, has.2⟩, has.1, ?_⟩
    intro x reaches workday
    obtain ⟨beyond, other⟩ := (reaches_step_workday inside workday).mp reaches
    exact first.least x beyond (by simp [workday, other])

theorem followingWorkday_passed (inside : d.Representable)
    (found : calendar.followingWorkday dir d = some m) :
    dir.passed calendar.isWorkday d m = 1 := by
  have first := ((followingWorkday_eq_some inside).mp found).2
  have has := first.has
  simp only [Bool.and_eq_true, bne_iff_ne] at has
  apply Direction.passed_one first.reaches has.2 has.1
  intro y beyond short notStart notEnd
  cases workday : calendar.isWorkday y with
  | false => rfl
  | true =>
    have least := first.least y beyond (by simp [workday, notStart])
    exact absurd (Direction.reaches_antisymm short least) notEnd

structure Stops (calendar : Calendar) (dir : Direction) (n : Nat) (d r : Date) : Prop where
  inside : r.Representable
  reaches : dir.Reaches d r
  passed : dir.passed calendar.isWorkday d r = n
  stays : n = 0 → r = d
  workday : n ≠ 0 → calendar.isWorkday r = true

theorem stops_zero (inside : d.Representable) : calendar.Stops dir 0 d r ↔ r = d := by
  constructor
  next => exact fun stops => stops.stays rfl
  next =>
    rintro rfl
    exact ⟨inside, .refl dir r, dir.passed_self _ r, fun _ => rfl, fun notZero => absurd rfl notZero⟩

theorem Stops.exists_following (stops : calendar.Stops dir (n + 1) d r) (inside : d.Representable) :
    ∃ m, calendar.followingWorkday dir d = some m ∧ dir.Reaches m r := by
  have workday := stops.workday n.succ_ne_zero
  have other : r ≠ d := by
    rintro rfl
    have none := stops.passed
    rw [dir.passed_self] at none
    omega
  cases found : calendar.followingWorkday dir d with
  | none =>
    have without := (Direction.seek_eq_none (dir.representable_step d)).mp found r stops.inside
      ((reaches_step_workday inside workday).mpr ⟨stops.reaches, other⟩)
    rw [workday] at without
    cases without
  | some m =>
    have first := ((followingWorkday_eq_some inside).mp found).2
    exact ⟨m, rfl, first.least r stops.reaches (by simp [workday, other])⟩

theorem stops_succ (inside : d.Representable) :
    calendar.Stops dir (n + 1) d r ↔
      ∃ m, calendar.followingWorkday dir d = some m ∧ calendar.Stops dir n m r := by
  constructor
  next =>
    intro stops
    obtain ⟨m, found, ahead⟩ := stops.exists_following inside
    have first := ((followingWorkday_eq_some inside).mp found).2
    have workday := stops.workday n.succ_ne_zero
    have rest : dir.passed calendar.isWorkday m r = n := by
      have all := stops.passed
      rw [← Direction.passed_add first.reaches ahead, followingWorkday_passed inside found] at all
      omega
    refine ⟨m, found, stops.inside, ahead, rest, ?_, fun _ => workday⟩
    rintro rfl
    -- Another day would be one more workday that is passed.
    by_cases same : r = m
    next => exact same
    next =>
      have more := Direction.passed_pos ahead same workday
      omega
  next =>
    rintro ⟨m, found, stops⟩
    have first := ((followingWorkday_eq_some inside).mp found).2
    refine ⟨stops.inside, first.reaches.trans stops.reaches, ?_, fun zero => by omega, fun _ => ?_⟩
    next =>
      rw [← Direction.passed_add first.reaches stops.reaches, followingWorkday_passed inside found,
        stops.passed]
      omega
    next =>
      by_cases last : n = 0
      next =>
        rw [stops.stays last]
        exact (Bool.and_eq_true_iff.mp first.has).1
      next => exact stops.workday last

theorem walk_eq_some (inside : d.Representable) :
    calendar.walk dir n d = some r ↔ calendar.Stops dir n d r := by
  induction n generalizing d with
  | zero => rw [walk, stops_zero inside, Option.some.injEq, eq_comm]
  | succ n ih =>
    rw [walk, Option.bind_eq_some_iff, stops_succ inside]
    apply exists_congr
    intro m
    apply and_congr_right
    intro found
    exact ih ((followingWorkday_eq_some inside).mp found).1

def workdaysAhead (calendar : Calendar) (dir : Direction) (d : Date) : Nat :=
  dir.passed calendar.isWorkday d dir.limit

theorem workdaysAhead_limit (calendar : Calendar) (dir : Direction) :
    calendar.workdaysAhead dir dir.limit = 0 :=
  dir.passed_self _ _

theorem workdaysAhead_of_none (inside : d.Representable)
    (nothing : calendar.followingWorkday dir d = none) : calendar.workdaysAhead dir d = 0 := by
  have without := (Direction.seek_eq_none (dir.representable_step d)).mp nothing
  apply Direction.passed_eq_zero
  intro x beyond short other
  have there := Direction.representable_between inside dir.representable_limit beyond short
  cases workday : calendar.isWorkday x with
  | false => rfl
  | true =>
    rw [without x there ((reaches_step_workday inside workday).mpr ⟨beyond, other⟩)] at workday
    cases workday

theorem workdaysAhead_of_some (inside : d.Representable)
    (found : calendar.followingWorkday dir d = some m) :
    calendar.workdaysAhead dir d = calendar.workdaysAhead dir m + 1 := by
  obtain ⟨there, first⟩ := (followingWorkday_eq_some inside).mp found
  rw [workdaysAhead, ← Direction.passed_add first.reaches (Direction.reaches_limit there),
    followingWorkday_passed inside found, Nat.add_comm]
  rfl

theorem isSome_walk (inside : d.Representable) :
    (calendar.walk dir n d).isSome = true ↔ n ≤ calendar.workdaysAhead dir d := by
  induction n generalizing d with
  | zero => simp [walk]
  | succ n ih =>
    rw [walk]
    cases found : calendar.followingWorkday dir d with
    | none => simp [workdaysAhead_of_none inside found]
    | some m =>
      have there := ((followingWorkday_eq_some inside).mp found).1
      rw [Option.bind_some, ih there, workdaysAhead_of_some inside found, Nat.add_le_add_iff_right]

def lastWorkday : Direction → Date
  | .before => Date.on (-1000000) 1 3
  | .after => Date.on 1000000 12 29

theorem isWorkday_lastWorkday (calendar : Calendar) (dir : Direction) :
    calendar.isWorkday (lastWorkday dir) = true := by
  cases calendar <;> cases dir <;> decide

theorem holiday_beyond (calendar : Calendar) (there : x.Representable)
    (beyond : dir.Reaches (lastWorkday dir) x) (other : x ≠ lastWorkday dir) :
    calendar.isWorkday x = false := by
  have bounds := there
  simp only [Date.Representable, Date.le_def, Date.floor_serial, Date.ceiling_serial] at bounds
  rw [Ne, Date.eq_iff_serial] at other
  -- Only a Saturday and a Sunday are left.
  cases dir with
  | before =>
    have third : (lastWorkday .before).serial = -365962026 := rfl
    have upTo : x.serial ≤ (lastWorkday .before).serial := beyond
    obtain rfl | rfl : x = ⟨-365962028⟩ ∨ x = ⟨-365962027⟩ := by
      simp only [Date.eq_iff_serial]
      omega
    all_goals cases calendar <;> decide
  | after =>
    have third : (lastWorkday .after).serial = 364523335 := rfl
    have fromThere : (lastWorkday .after).serial ≤ x.serial := beyond
    obtain rfl | rfl : x = ⟨364523336⟩ ∨ x = ⟨364523337⟩ := by
      simp only [Date.eq_iff_serial]
      omega
    all_goals cases calendar <;> decide

theorem isSome_nearestWorkday (inside : d.Representable) :
    (calendar.nearestWorkday dir d).isSome = true ↔ dir.Reaches d (lastWorkday dir) := by
  rw [nearestWorkday, Option.isSome_iff_exists]
  constructor
  next =>
    rintro ⟨r, found⟩
    obtain ⟨there, first⟩ := (Direction.seek_eq_some inside).mp found
    rcases dir.reaches_total d (lastWorkday dir) with ahead | behind
    next => exact ahead
    next =>
      by_cases same : r = lastWorkday dir
      next => exact same ▸ first.reaches
      next =>
        have holiday := calendar.holiday_beyond there (behind.trans first.reaches) same
        exact absurd first.has (by simp [holiday])
  next =>
    intro ahead
    have there : (lastWorkday dir).Representable := by cases dir <;> decide
    obtain ⟨r, found, -⟩ := Direction.seek_finds inside ahead there
      (calendar.isWorkday_lastWorkday dir)
    exact ⟨r, found⟩

end Calendar

end Almanac
