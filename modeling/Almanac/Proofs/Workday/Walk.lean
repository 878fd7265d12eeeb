import Almanac.Proofs.Date.Civil
import Almanac.Proofs.Holiday.Run
import Almanac.Proofs.Workday.Tally
import Almanac.Workday

set_option autoImplicit false

/-!
# Walks over workdays

A walk in a direction stops on a workday and passes as many workdays as it is long.
-/

namespace Almanac

namespace Direction

def Reaches : Direction → Date → Date → Prop
  | .before, a, b => b ≤ a
  | .after, a, b => a ≤ b

/-- The number of days with a property that a walk passes, of which it leaves out the first. -/
def passed : Direction → (Date → Bool) → Date → Date → Nat
  | .before, p, a, b => tally p (b.serial - 1) (a.serial - 1)
  | .after, p, a, b => tally p a.serial b.serial

section

variable {dir : Direction} {p : Date → Bool} {a b c d r x : Date}

theorem Reaches.refl (dir : Direction) (a : Date) : dir.Reaches a a := by
  cases dir <;> exact Int.le_refl _

theorem Reaches.trans (first : dir.Reaches a b) (second : dir.Reaches b c) :
    dir.Reaches a c := by
  cases dir with
  | before => exact Int.le_trans second first
  | after => exact Int.le_trans first second

theorem reaches_antisymm (first : dir.Reaches a b) (second : dir.Reaches b a) : a = b := by
  cases dir with
  | before => exact Date.ext (Int.le_antisymm second first)
  | after => exact Date.ext (Int.le_antisymm first second)

theorem Reaches.near (first : dir.Reaches a b) (second : dir.Reaches b c) :
    (b.serial - a.serial).natAbs ≤ (c.serial - a.serial).natAbs := by
  cases dir with
  | before => simp only [Reaches, Date.le_def] at *; omega
  | after => simp only [Reaches, Date.le_def] at *; omega

theorem passed_self (dir : Direction) (p : Date → Bool) (d : Date) : dir.passed p d d = 0 := by
  cases dir with
  | before => exact tally_eq_zero (by omega)
  | after => exact tally_eq_zero (by omega)

theorem passed_add (first : dir.Reaches a b) (second : dir.Reaches b c) :
    dir.passed p a b + dir.passed p b c = dir.passed p a c := by
  cases dir with
  | before =>
    rw [Nat.add_comm]
    exact tally_add (Int.sub_le_sub_right second 1) (Int.sub_le_sub_right first 1)
  | after => exact tally_add first second

theorem reaches_step (inside : d.Representable) (free : 0 < dir.room d) :
    dir.Reaches (dir.step d) x ↔ dir.Reaches d x ∧ x ≠ d := by
  simp only [Date.Representable, Date.le_def, Date.floor_serial, Date.ceiling_serial] at inside
  cases dir with
  | before =>
    simp only [Reaches, step, Date.previous, Date.minus, Date.saturate, room, Date.le_def,
      Date.floor_serial, Date.ceiling_serial, Date.eq_iff_serial, Ne] at *
    omega
  | after =>
    simp only [Reaches, step, Date.next, Date.plus, Date.saturate, room, Date.le_def,
      Date.floor_serial, Date.ceiling_serial, Date.eq_iff_serial, Ne] at *
    omega

theorem room_of_reaches (reaches : dir.Reaches d x) (other : x ≠ d) (there : x.Representable) :
    0 < dir.room d := by
  simp only [Date.Representable, Date.le_def, Date.floor_serial, Date.ceiling_serial, Ne,
    Date.eq_iff_serial] at there other
  cases dir with
  | before => simp only [Reaches, room, Date.le_def, Date.floor_serial] at *; omega
  | after => simp only [Reaches, room, Date.le_def, Date.ceiling_serial] at *; omega

theorem representable_step (dir : Direction) (d : Date) : (dir.step d).Representable := by
  cases dir <;> exact Date.representable_saturate _

theorem seek_finds (inside : d.Representable) (reaches : dir.Reaches d x)
    (there : x.Representable) (has : p x = true) :
    ∃ r, dir.seek p d = some r ∧ p r = true ∧ dir.Reaches d r ∧ dir.Reaches r x ∧
      ∀ y, dir.Reaches d y → dir.Reaches y r → y ≠ r → p y = false := by
  -- The room left shrinks with every step, and the date that is sought stays ahead.
  induction d using Direction.seek.induct dir p with
  | case1 d found =>
    refine ⟨d, by rw [seek, if_pos found], found, Reaches.refl dir d, reaches, ?_⟩
    intro y beyond short other
    exact absurd (reaches_antisymm short beyond) other
  | case2 d notHere free ih =>
    have other : x ≠ d := by
      rintro rfl
      exact notHere has
    obtain ⟨r, found, holds, beyond, short, first⟩ :=
      ih (representable_step dir d) ((reaches_step inside free).mpr ⟨reaches, other⟩)
    refine ⟨r, ?_, holds, ((reaches_step inside free).mp beyond).1, short, ?_⟩
    next => rw [seek, if_neg notHere, if_pos free, found]
    next =>
      intro y beyond short other
      by_cases start : y = d
      next => rwa [start, ← Bool.not_eq_true]
      next => exact first y ((reaches_step inside free).mpr ⟨beyond, start⟩) short other
  | case3 d notHere full =>
    have other : x ≠ d := by
      rintro rfl
      exact notHere has
    exact absurd (room_of_reaches reaches other there) full

theorem passed_one (reaches : dir.Reaches d r) (moved : r ≠ d) (has : p r = true)
    (first : ∀ y, dir.Reaches d y → dir.Reaches y r → y ≠ d → y ≠ r → p y = false) :
    dir.passed p d r = 1 := by
  have between : ∀ s, dir.Reaches d ⟨s⟩ → dir.Reaches ⟨s⟩ r → s ≠ d.serial → s ≠ r.serial →
      p ⟨s⟩ = false := by
    intro s beyond short notStart notEnd
    exact first ⟨s⟩ beyond short (mt (congrArg Date.serial) notStart)
      (mt (congrArg Date.serial) notEnd)
  rw [Ne, Date.eq_iff_serial] at moved
  cases dir with
  | before =>
    have back : r.serial ≤ d.serial := reaches
    have none : tally p r.serial (d.serial - 1) = 0 := by
      apply tally_eq_zero
      intro s low high
      exact between s (show s ≤ d.serial by omega) (show r.serial ≤ s by omega) (by omega)
        (by omega)
    rw [passed, ← tally_add (show r.serial - 1 ≤ r.serial by omega) (by omega), tally_one has, none]
  | after =>
    have forward : d.serial ≤ r.serial := reaches
    have none : tally p d.serial (r.serial - 1) = 0 := by
      apply tally_eq_zero
      intro s low high
      exact between s (show d.serial ≤ s by omega) (show s ≤ r.serial by omega) (by omega)
        (by omega)
    rw [passed, ← tally_add (show d.serial ≤ r.serial - 1 by omega) (by omega), tally_one has, none]

end

end Direction

namespace Date.HasRoom

variable {d : Date} {days : Int}

theorem representable (room : d.HasRoom days) (few : 0 ≤ days) : d.Representable := by
  unfold HasRoom at room
  simp only [Representable, le_def]
  omega

end Date.HasRoom

namespace Calendar

theorem workday_within (calendar : Calendar) (dir : Direction) {d : Date} (room : d.HasRoom 28) :
    ∃ x, dir.Reaches d x ∧ (x.serial - d.serial).natAbs < calendar.cycle ∧
      calendar.isWorkday x = true := by
  have bounds := calendar.cycle_bounds
  cases dir with
  | before =>
    -- Back, the row of days ends on this one.
    have there : (⟨d.serial - calendar.cycle + 1⟩ : Date).HasRoom 20 :=
      room.near (by simp only; omega)
    obtain ⟨k, inCycle, workday⟩ := calendar.exists_workday there
    refine ⟨_, ?_, ?_, workday⟩
    next => simp only [Direction.Reaches, Date.le_def]; omega
    next => simp only; omega
  | after =>
    obtain ⟨k, inCycle, workday⟩ := calendar.exists_workday (room.mono (by decide))
    refine ⟨_, ?_, ?_, workday⟩
    next => simp only [Direction.Reaches, Date.le_def]; omega
    next => simp only; omega

theorem step_serial (dir : Direction) {d : Date} (room : d.HasRoom 30) :
    ((dir.step d).serial - d.serial).natAbs = 1 := by
  cases dir with
  | before =>
    have previous : d.previous.serial = d.serial - 1 := room.minus_serial (by decide)
    rw [Direction.step]
    omega
  | after =>
    have next : d.next.serial = d.serial + 1 := room.plus_serial (by decide)
    rw [Direction.step]
    omega

end Calendar

end Almanac
