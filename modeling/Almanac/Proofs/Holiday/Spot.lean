import Almanac.Holiday.Calendar
import Almanac.Proofs.Date.NthWeekday
import Almanac.Proofs.Holiday.Page

set_option autoImplicit false

/-!
# The pages of holidays

Whatever the year, a calendar closes a day only on some of the pages, next to some of them, or on
one of its listed dates.
-/

namespace Almanac

namespace Holiday

/-- Some days of a month, from a first to a last, that fall on a weekday or on any. -/
structure Spot where
  month : Nat
  first : Nat
  last : Nat
  weekday : Option Weekday
  deriving DecidableEq

def Spot.Holds (spot : Spot) (page : Page) : Prop :=
  page.month = spot.month ∧ (spot.first ≤ page.day ∧ page.day ≤ spot.last) ∧
    ∀ w ∈ spot.weekday, page.weekday = w

instance (spot : Spot) (page : Page) : Decidable (spot.Holds page) :=
  inferInstanceAs (Decidable (_ ∧ _ ∧ _))

-- Back from its end, the days of a weekday vary with the length of the month.
def Rule.spots : Rule → List Spot
  | .fixed month day => [⟨month, day, day, none⟩]
  | .nthWeekday nth weekday month =>
      if 0 < nth then [⟨month, (7 * nth - 6).toNat, (7 * nth).toNat, some weekday⟩]
      else [⟨month, (29 + 7 * nth).toNat, (38 + 7 * nth).toNat, some weekday⟩]
  | .goodFriday => [⟨3, 1, 31, some .friday⟩, ⟨4, 1, 31, some .friday⟩]
  | .electionDay => [⟨11, 2, 8, some .tuesday⟩]

theorem isElectionDay_day {d : Date} (election : isElectionDay d = true) :
    2 ≤ d.day ∧ d.day ≤ 8 := by
  unfold isElectionDay at election
  split at election
  next monday isFirst =>
    rw [beq_iff_eq] at election
    obtain ⟨inRange, -, sameMonth, -, place⟩ := Date.nthWeekday_eq_ok.mp isFirst
    have day := monday.day_bounds
    have room := inRange.inland.hasRoom
    -- Election Day follows the first Monday, which is at most the 7th.
    have next := @Date.page_shift monday 1 (by decide)
    have isNext : (⟨monday.serial + 1⟩ : Date) = d := by
      rw [← election, Date.eq_iff_serial, Date.next, room.plus_serial (by decide)]
    simp only [Date.placeFromStart, Date.placeFromEnd, Date.monthLength, sameMonth,
      Civil.monthLength] at place day
    rw [isNext] at next
    have shown := congrArg Page.day next
    simp only [Date.page, Page.shift, sameMonth, Civil.monthLength] at shown
    rw [if_neg (by omega), if_pos (by omega)] at shown
    dsimp only at shown
    omega
  next => cases election

theorem exists_spot {rule : Rule} {d : Date} (falls : rule.fallsOn d = true) :
    ∃ spot ∈ rule.spots, spot.Holds d.page := by
  have day := d.day_bounds
  have length := Civil.monthLength_bounds d.year d.month
  rw [Date.monthLength] at day
  cases rule with
  | fixed month dayOfMonth =>
    simp only [Rule.fallsOn, Bool.and_eq_true, beq_iff_eq] at falls
    simp [Rule.spots, Spot.Holds, Date.page, falls]
  | nthWeekday nth weekday month =>
    simp only [Rule.fallsOn, Bool.and_eq_true, beq_iff_eq, Date.isNthWeekday_iff] at falls
    obtain ⟨⟨sameWeekday, sameMonth⟩, isNth⟩ := falls
    obtain ⟨-, -, -, -, place⟩ := Date.nthWeekday_eq_ok.mp isNth
    simp only [Date.placeFromStart, Date.placeFromEnd, Date.monthLength] at place
    simp only [Rule.spots]
    split
    next => simp [Spot.Holds, Date.page, sameMonth, sameWeekday]; omega
    next => simp [Spot.Holds, Date.page, sameMonth, sameWeekday]; omega
  | goodFriday =>
    simp only [Rule.fallsOn, Bool.and_eq_true, Bool.or_eq_true, beq_iff_eq] at falls
    simp [Rule.spots, Spot.Holds, Date.page, falls]
    omega
  | electionDay =>
    simp only [Rule.fallsOn, Bool.and_eq_true, beq_iff_eq] at falls
    have days := isElectionDay_day falls.2
    simp [Rule.spots, Spot.Holds, Date.page, falls]
    omega

end Holiday

namespace Calendar

open Holiday

def feasts : Calendar → List Feast
  | .federal => Federal.feasts
  | .exchange => Exchange.feasts

def spots (calendar : Calendar) : List Spot :=
  calendar.feasts.flatMap (fun feast => feast.rule.spots) ++
    match calendar with
    | .federal => [⟨1, 20, 20, none⟩, ⟨1, 21, 21, some .monday⟩, ⟨12, 26, 26, some .friday⟩]
    | .exchange => []

def OnSpot (calendar : Calendar) (page : Page) : Prop :=
  ∃ spot ∈ calendar.spots, spot.Holds page

instance (calendar : Calendar) (page : Page) : Decidable (calendar.OnSpot page) :=
  inferInstanceAs (Decidable (∃ _ ∈ _, _))

def MayClose (calendar : Calendar) (before page after : Page) : Prop :=
  page.weekday.isWeekend = true ∨ calendar.OnSpot page ∨
    (page.weekday = .friday ∧ calendar.OnSpot after) ∨
    (page.weekday = .monday ∧ calendar.OnSpot before)

instance (calendar : Calendar) (before page after : Page) :
    Decidable (calendar.MayClose before page after) :=
  inferInstanceAs (Decidable (_ ∨ _ ∨ _ ∨ _))

def listed : Calendar → List Date
  | .federal => Federal.decreed ++ Federal.funerals
  | .exchange => Federal.funerals ++ Exchange.closures

theorem onSpot_of_feast {calendar : Calendar} {d : Date}
    (feast : (calendar.feasts.any fun feast => feast.fallsOn d) = true) :
    calendar.OnSpot d.page := by
  obtain ⟨feast, isFeast, falls⟩ := List.any_eq_true.mp feast
  rw [Feast.fallsOn, Bool.and_eq_true] at falls
  obtain ⟨spot, member, holds⟩ := exists_spot falls.1
  exact ⟨spot, List.mem_append_left _ (List.mem_flatMap.mpr ⟨feast, isFeast, member⟩), holds⟩

theorem mayClose_of_holiday {calendar : Calendar} {d : Date} (room : d.HasRoom 1)
    (holiday : calendar.isHoliday d = true) :
    calendar.MayClose (⟨d.serial - 1⟩ : Date).page d.page (⟨d.serial + 1⟩ : Date).page ∨
      d ∈ calendar.listed ∨ (calendar = .exchange ∧ Exchange.isPaperworkDay d = true) := by
  have next : d.next = ⟨d.serial + 1⟩ := Date.ext (room.plus_serial (by decide))
  have previous : d.previous = ⟨d.serial - 1⟩ := Date.ext (room.minus_serial (by decide))
  cases calendar with
  | federal =>
    have onSpot := fun {e : Date} => @onSpot_of_feast .federal e
    simp only [isHoliday, Federal.isHoliday, Federal.isObserved, Bool.or_eq_true,
      Bool.and_eq_true, beq_iff_eq, List.contains_iff_mem, next, previous] at holiday
    rcases holiday with (((((weekend | decreed) | funeral) | feast) | christmas) |
      ⟨friday, feast⟩ | ⟨monday, feast⟩) | inauguration
    next => exact .inl (.inl weekend)
    next => exact .inr (.inl (List.mem_append_left _ decreed))
    next => exact .inr (.inl (List.mem_append_right _ funeral))
    next => exact .inl (.inr (.inl (onSpot feast)))
    next =>
      simp only [Federal.isDayAfterChristmas, Bool.and_eq_true, beq_iff_eq] at christmas
      refine .inl (.inr (.inl ⟨⟨12, 26, 26, some .friday⟩, by decide, ?_⟩))
      simp [Spot.Holds, Date.page, christmas]
    next => exact .inl (.inr (.inr (.inl ⟨friday, onSpot feast⟩)))
    next => exact .inl (.inr (.inr (.inr ⟨monday, onSpot feast⟩)))
    next =>
      simp only [Federal.isInauguration, Bool.and_eq_true, Bool.or_eq_true, beq_iff_eq]
        at inauguration
      obtain ⟨january, ⟨day, -⟩ | ⟨day, monday⟩⟩ := inauguration
      next =>
        refine .inl (.inr (.inl ⟨⟨1, 20, 20, none⟩, by decide, ?_⟩))
        simp [Spot.Holds, Date.page, january, day]
      next =>
        refine .inl (.inr (.inl ⟨⟨1, 21, 21, some .monday⟩, by decide, ?_⟩))
        simp [Spot.Holds, Date.page, january, day, monday]
  | exchange =>
    have onSpot := fun {e : Date} => @onSpot_of_feast .exchange e
    simp only [isHoliday, Exchange.isHoliday, Exchange.isClosed, Exchange.isObserved,
      Bool.or_eq_true, Bool.and_eq_true, beq_iff_eq, List.contains_iff_mem, next, previous]
      at holiday
    rcases holiday with ((((weekend | funeral) | feast) | closure) |
      ⟨⟨⟨friday, -⟩, -⟩, feast⟩ | ⟨monday, feast⟩) | paperwork
    next => exact .inl (.inl weekend)
    next => exact .inr (.inl (List.mem_append_left _ funeral))
    next => exact .inl (.inr (.inl (onSpot feast)))
    next => exact .inr (.inl (List.mem_append_right _ closure))
    next => exact .inl (.inr (.inr (.inl ⟨friday, onSpot feast⟩)))
    next => exact .inl (.inr (.inr (.inr ⟨monday, onSpot feast⟩)))
    next => exact .inr (.inr ⟨rfl, paperwork⟩)

end Calendar

end Almanac
