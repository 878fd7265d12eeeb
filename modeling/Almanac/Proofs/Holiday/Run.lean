import Almanac.Proofs.Holiday.Paperwork
import Almanac.Proofs.Holiday.Spot

set_option autoImplicit false

/-!
# Runs of holidays

Holidays never pile up: five days in a row hold a workday of the federal calendar, and seven one of
the exchange.
-/

namespace Almanac.Calendar

open Holiday

def cycle : Calendar → Nat
  | .federal => 5
  | .exchange => 7

/-- A day lies between two open ones, or is one, with fewer days than a cycle between them. -/
def Enclosed (calendar : Calendar) (isOpen : Int → Prop) : Prop :=
  ∃ before < calendar.cycle, isOpen (-before) ∧
    ∃ after < calendar.cycle, before + after ≤ calendar.cycle ∧ isOpen after

instance (calendar : Calendar) (isOpen : Int → Prop) [DecidablePred isOpen] :
    Decidable (calendar.Enclosed isOpen) :=
  inferInstanceAs (Decidable (∃ _, _ ∧ _))

theorem Enclosed.exists_open {calendar : Calendar} {isOpen : Int → Prop}
    (enclosed : calendar.Enclosed isOpen) {place : Nat} (h : place < calendar.cycle) :
    ∃ k < calendar.cycle, isOpen (k - place) := by
  obtain ⟨before, few, openBefore, after, -, short, openAfter⟩ := enclosed
  by_cases reached : before ≤ place
  next =>
    refine ⟨place - before, by omega, ?_⟩
    rwa [show ((place - before : Nat) : Int) - place = -before by omega]
  next =>
    refine ⟨place + after, by omega, ?_⟩
    rwa [show ((place + after : Nat) : Int) - place = after by omega]

-- Days in the middle of the week are closed on a few pages only, whose surroundings can be run
-- through one by one.
theorem enclosed_spot (calendar : Calendar) :
    ∀ spot ∈ calendar.spots, ∀ year ∈ ([2023, 2024] : List Int),
      ∀ weekday ∈ [Weekday.tuesday, .wednesday, .thursday], (∀ w ∈ spot.weekday, weekday = w) →
      ∀ i < spot.last + 1 - spot.first, calendar.Enclosed fun offset =>
        ¬calendar.MayClose
          ((⟨spot.month, spot.first + i, weekday⟩ : Page).shift year (offset - 1))
          ((⟨spot.month, spot.first + i, weekday⟩ : Page).shift year offset)
          ((⟨spot.month, spot.first + i, weekday⟩ : Page).shift year (offset + 1)) := by
  cases calendar with
  | federal => decide +kernel
  | exchange => decide +kernel

theorem enclosed_listed (calendar : Calendar) :
    ∀ d ∈ calendar.listed, calendar.Enclosed fun offset =>
      calendar.isWorkday ⟨d.serial + offset⟩ = true := by
  cases calendar with
  | federal => decide +kernel
  | exchange => decide +kernel

theorem cycle_bounds (calendar : Calendar) : 5 ≤ calendar.cycle ∧ calendar.cycle ≤ 7 := by
  cases calendar <;> decide

theorem Enclosed.imp {calendar : Calendar} {isOpen isOpen' : Int → Prop}
    (enclosed : calendar.Enclosed isOpen)
    (h : ∀ offset, -7 ≤ offset → offset ≤ 7 → isOpen offset → isOpen' offset) :
    calendar.Enclosed isOpen' := by
  have bounds := calendar.cycle_bounds
  obtain ⟨before, few, openBefore, after, fewAfter, short, openAfter⟩ := enclosed
  exact ⟨before, few, h _ (by omega) (by omega) openBefore, after, fewAfter, short,
    h _ (by omega) (by omega) openAfter⟩

def PagesClose (calendar : Calendar) (d : Date) : Prop :=
  calendar.MayClose (⟨d.serial - 1⟩ : Date).page d.page (⟨d.serial + 1⟩ : Date).page

theorem onSpot_of_midweek {calendar : Calendar} {d : Date} (closed : calendar.PagesClose d)
    (midweek : d.weekday ∈ [Weekday.tuesday, .wednesday, .thursday]) :
    calendar.OnSpot d.page := by
  rcases closed with weekend | onSpot | ⟨friday, -⟩ | ⟨monday, -⟩
  next =>
    rw [Date.page] at weekend
    generalize d.weekday = weekday at weekend midweek
    cases weekday <;> simp [Weekday.isWeekend] at weekend midweek
  next => exact onSpot
  next =>
    rw [show d.weekday = .friday from friday] at midweek
    simp at midweek
  next =>
    rw [show d.weekday = .monday from monday] at midweek
    simp at midweek

theorem enclosed_midweek {calendar : Calendar} {d : Date} (closed : calendar.PagesClose d)
    (midweek : d.weekday ∈ [Weekday.tuesday, .wednesday, .thursday]) :
    calendar.Enclosed fun offset => ¬calendar.PagesClose ⟨d.serial + offset⟩ := by
  obtain ⟨spot, member, sameMonth, days, sameWeekday⟩ := onSpot_of_midweek closed midweek
  -- The pages around this one are those of a leap year or of a common one, which were run through.
  obtain ⟨like, isLike, shifts⟩ := Page.shift_like d.year
  obtain ⟨i, dayOf⟩ : ∃ i, d.page.day = spot.first + i := ⟨d.page.day - spot.first, by omega⟩
  have enclosed := calendar.enclosed_spot spot member like isLike d.weekday midweek sameWeekday i
    (by omega)
  rw [← dayOf, ← sameMonth] at enclosed
  apply enclosed.imp
  intro offset low high isOpen closedThere
  apply isOpen
  have shifted : ∀ n, -27 ≤ n ∧ n ≤ 28 →
      (⟨d.page.month, d.page.day, d.weekday⟩ : Page).shift like n =
        (⟨d.serial + n⟩ : Date).page := by
    intro n few
    rw [d.page_shift few, shifts]
    rfl
  rw [shifted (offset - 1) (by omega), shifted offset (by omega),
    shifted (offset + 1) (by omega), ← Int.add_sub_assoc, ← Int.add_assoc]
  exact closedThere

theorem isWorkday_iff {calendar : Calendar} {d : Date} :
    calendar.isWorkday d = true ↔ calendar.isHoliday d = false := by
  rw [isWorkday, Bool.not_eq_true']

theorem workday_of_paperwork {d : Date} (paperwork : Exchange.isPaperworkDay d = true)
    {offset : Int} (near : offset = -1 ∨ offset = 1) :
    exchange.isWorkday ⟨d.serial + offset⟩ = true := by
  have crisis := Exchange.inCrisis_of_isPaperworkDay paperwork
  have member : ⟨d.serial + offset⟩ ∈ Exchange.consulted d :=
    crisis.mem_consulted_iff.mpr ⟨offset, by rcases near with rfl | rfl <;> decide, rfl⟩
  exact isWorkday_iff.mpr (Exchange.isHoliday_of_consulted paperwork member)

def IsSpecial (calendar : Calendar) (d : Date) : Prop :=
  d ∈ calendar.listed ∨ (calendar = .exchange ∧ Exchange.isPaperworkDay d = true)

theorem workday_near_special {calendar : Calendar} {d : Date} {k : Nat}
    (inCycle : k < calendar.cycle) (special : calendar.IsSpecial ⟨d.serial + k⟩) :
    ∃ j < calendar.cycle, calendar.isWorkday ⟨d.serial + (j : Nat)⟩ = true := by
  rcases special with listed | ⟨rfl, paperwork⟩
  next =>
    obtain ⟨j, within, workday⟩ := (calendar.enclosed_listed _ listed).exists_open inCycle
    refine ⟨j, within, ?_⟩
    rwa [show d.serial + (k : Int) + ((j : Int) - k) = d.serial + j by omega] at workday
  next =>
    obtain ⟨j, within, offset, place, near⟩ : ∃ j < exchange.cycle, ∃ offset : Int,
        (j : Int) = k + offset ∧ (offset = -1 ∨ offset = 1) := by
      by_cases first : k = 0
      next => exact ⟨1, by decide, 1, by omega, .inr rfl⟩
      next => exact ⟨k - 1, by omega, -1, by omega, .inl rfl⟩
    refine ⟨j, within, ?_⟩
    rw [place, ← Int.add_assoc]
    exact workday_of_paperwork paperwork near

theorem exists_workday (calendar : Calendar) {d : Date} (room : d.HasRoom 20) :
    ∃ k < calendar.cycle, calendar.isWorkday ⟨d.serial + (k : Nat)⟩ = true := by
  have bounds := calendar.cycle_bounds
  have reason : ∀ k < calendar.cycle, calendar.isWorkday ⟨d.serial + (k : Nat)⟩ = true ∨
      calendar.PagesClose ⟨d.serial + (k : Nat)⟩ ∨ calendar.IsSpecial ⟨d.serial + (k : Nat)⟩ := by
    intro k inCycle
    cases holiday : calendar.isHoliday ⟨d.serial + (k : Nat)⟩ with
    | false => exact .inl (isWorkday_iff.mpr holiday)
    | true => exact .inr (mayClose_of_holiday (room.near (by simp only; omega)) holiday)
  -- Five days in a row never miss all of Tuesday, Wednesday and Thursday.
  obtain ⟨k, inCycle, midweek⟩ : ∃ k < calendar.cycle,
      (⟨d.serial + (k : Nat)⟩ : Date).weekday ∈ [Weekday.tuesday, .wednesday, .thursday] := by
    simp only [List.mem_cons, List.not_mem_nil, or_false, Date.weekday_eq_iff, Weekday.sundayIndex]
    by_cases early : (d.serial + 4) % 7 < 5
    next => exact ⟨(2 - (d.serial + 4) % 7).toNat, by omega, by omega⟩
    next => exact ⟨(9 - (d.serial + 4) % 7).toNat, by omega, by omega⟩
  rcases reason k inCycle with workday | closed | special
  next => exact ⟨k, inCycle, workday⟩
  next =>
    -- Some day of the row is not closed by its page, so it is open or closed in one year only.
    obtain ⟨j, within, isOpen⟩ := (enclosed_midweek closed midweek).exists_open inCycle
    simp only [show d.serial + (k : Int) + ((j : Int) - k) = d.serial + j by omega] at isOpen
    rcases reason j within with workday | closed | special
    next => exact ⟨j, within, workday⟩
    next => exact absurd closed isOpen
    next => exact workday_near_special within special
  next => exact workday_near_special inCycle special

end Almanac.Calendar
