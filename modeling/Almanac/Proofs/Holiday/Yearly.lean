import Almanac.Proofs.Easter
import Almanac.Proofs.Date.DaysOn
import Almanac.Proofs.Holiday.Spot

set_option autoImplicit false

/-!
# The feasts of a year

Each rule names a day in a year, and a date is a feast when a rule names it in its own year.
-/

namespace Almanac

namespace Date.HasRoom

variable {d e : Date} {n : Int} (room : d.HasRoom 1)

include room

theorem saturate_eq_iff : saturate n = d ↔ n = d.serial := by
  rw [HasRoom] at room
  rw [eq_iff_serial, saturate]
  dsimp only
  omega

theorem next_eq_iff : e.next = d ↔ e.serial + 1 = d.serial :=
  room.saturate_eq_iff

theorem minus_eq_iff : e.minus n = d ↔ e.serial - n = d.serial :=
  room.saturate_eq_iff

theorem eq_next_iff : d = e.next ↔ e = d.previous := by
  rw [eq_comm, room.next_eq_iff, eq_iff_serial, previous, room.minus_serial (by decide)]
  omega

theorem eq_previous_iff : d = e.previous ↔ e = d.next := by
  rw [eq_comm, previous, room.minus_eq_iff, eq_iff_serial, next, room.plus_serial (by decide)]
  omega

theorem weekday_next_eq_iff (weekday : Weekday) :
    d.next.weekday = weekday.next ↔ d.weekday = weekday := by
  have index := weekday.sundayIndex_lt
  have after := Weekday.sundayIndex_afterSunday (weekday.sundayIndex + 1)
  rw [weekday_eq_iff, weekday_eq_iff, next, room.plus_serial (by decide), Weekday.next]
  omega

theorem weekday_previous_eq_iff (weekday : Weekday) :
    d.previous.weekday = weekday.previous ↔ d.weekday = weekday := by
  have index := weekday.sundayIndex_lt
  have before := Weekday.sundayIndex_afterSunday (weekday.sundayIndex - 1)
  rw [weekday_eq_iff, weekday_eq_iff, previous, room.minus_serial (by decide), Weekday.previous]
  omega

theorem moved_from_sunday :
    (e.weekday = .sunday ∧ d = e.next) ↔ (d.weekday = .monday ∧ e = d.previous) := by
  rw [room.eq_next_iff]
  apply and_congr_left
  rintro rfl
  exact room.weekday_previous_eq_iff .monday

theorem moved_from_saturday :
    (e.weekday = .saturday ∧ d = e.previous) ↔ (d.weekday = .friday ∧ e = d.next) := by
  rw [room.eq_previous_iff]
  apply and_congr_left
  rintro rfl
  exact room.weekday_next_eq_iff .friday

end Date.HasRoom

theorem Date.isWeekend_iff {d : Date} :
    d.isWeekend = true ↔ d.weekday = .saturday ∨ d.weekday = .sunday := by
  unfold Date.isWeekend
  cases d.weekday <;> simp [Weekday.isWeekend]

namespace Holiday

def Rule.dayIn? (year : Int) : Rule → Option Date
  | .fixed month day => some (Date.on year month day)
  | .nthWeekday nth weekday month => Date.nthOn nth weekday year month
  | .goodFriday =>
      ((Date.easter year 1582).toOption.map (·.minus 2)).filter (·.weekday == .friday)
  | .electionDay => (Date.nthOn 1 .monday year 11).map Date.next

-- A rule that counts weekdays names none at the end of a week, so that its days are never moved.
def Rule.Proper : Rule → Prop
  | .fixed month day =>
      (1 ≤ month ∧ month ≤ 12) ∧ 1 ≤ day ∧ day ≤ Civil.monthLength 2023 month
  | .nthWeekday nth weekday month =>
      (1 ≤ month ∧ month ≤ 12) ∧ nth ≠ 0 ∧ weekday.isWeekend = false
  | .goodFriday | .electionDay => True

instance : DecidablePred Rule.Proper
  | .fixed .. | .nthWeekday .. => inferInstanceAs (Decidable (_ ∧ _ ∧ _))
  | .goodFriday | .electionDay => inferInstanceAs (Decidable True)

theorem proper_of_mem_feasts (calendar : Calendar) :
    ∀ feast ∈ calendar.feasts, feast.rule.Proper := by
  cases calendar with
  | federal => decide
  | exchange => decide

structure Settled (d : Date) : Prop where
  room : d.HasRoom 400
  known : d.InRange ∨ d.isWeekend = true

variable {d : Date} {year : Int}

theorem Settled.inRange (settled : Settled d) (weekday : d.weekday.isWeekend = false) :
    d.InRange := by
  rcases settled.known with known | weekend
  next => exact known
  next => rw [Date.isWeekend, weekday] at weekend; cases weekend

theorem settled_of_inRange (inRange : d.InRange) : Settled d :=
  ⟨inRange.hasRoom (by decide), .inl inRange⟩

theorem settled_next (inRange : d.InRange) (friday : d.weekday = .friday) : Settled d.next := by
  have room := inRange.inland.hasRoom
  have near : d.HasRoom 1 := room.mono (by decide)
  have saturday : d.next.weekday = .saturday := (near.weekday_next_eq_iff .friday).mpr friday
  have serial : d.next.serial = d.serial + 1 := room.plus_serial (by decide)
  exact ⟨room.near (by omega), .inr (by rw [Date.isWeekend, saturday]; rfl)⟩

theorem settled_previous (inRange : d.InRange) (monday : d.weekday = .monday) :
    Settled d.previous := by
  have room := inRange.inland.hasRoom
  have near : d.HasRoom 1 := room.mono (by decide)
  have sunday : d.previous.weekday = .sunday := (near.weekday_previous_eq_iff .monday).mpr monday
  have serial : d.previous.serial = d.serial - 1 := room.minus_serial (by decide)
  exact ⟨room.near (by omega), .inr (by rw [Date.isWeekend, sunday]; rfl)⟩

theorem fixed_fallsOn_iff {month day : Nat} (proper : (Rule.fixed month day).Proper) :
    (Rule.fixed month day).fallsOn d = true ∧ d.year = year ↔
      (Rule.fixed month day).dayIn? year = some d := by
  -- The year 2023 is a common year, so its months are as short as those of any year.
  have common : ¬Civil.isLeap 2023 = true := by decide
  have length : Civil.monthLength 2023 month ≤ Civil.monthLength year month :=
    Civil.monthLength_mono (absurd · common) month
  have valid : Civil.Valid ⟨year, month, day⟩ :=
    ⟨proper.1.1, proper.1.2, proper.2.1, Nat.le_trans proper.2.2 length⟩
  simp only [Rule.fallsOn, Rule.dayIn?, Bool.and_eq_true, beq_iff_eq, Option.some.injEq]
  constructor
  next =>
    rintro ⟨⟨rfl, rfl⟩, rfl⟩
    exact d.on_parts
  next =>
    rintro rfl
    exact ⟨⟨Date.month_on valid, Date.day_on valid⟩, Date.year_on valid⟩

theorem nthWeekday_fallsOn_iff {nth : Int} {weekday : Weekday} {month : Nat}
    (proper : (Rule.nthWeekday nth weekday month).Proper) (settled : Settled d) :
    (Rule.nthWeekday nth weekday month).fallsOn d = true ∧ d.year = year ↔
      (Rule.nthWeekday nth weekday month).dayIn? year = some d := by
  obtain ⟨months, notZero, midweek⟩ := proper
  simp only [Rule.fallsOn, Rule.dayIn?, Bool.and_eq_true, beq_iff_eq, Date.isNthWeekday_iff,
    Date.nthWeekday_eq_ok, Date.nthOn_eq_some months notZero]
  constructor
  next =>
    rintro ⟨⟨⟨sameWeekday, sameMonth⟩, -, -, -, -, place⟩, sameYear⟩
    exact ⟨sameYear, sameMonth, sameWeekday, place⟩
  next =>
    rintro ⟨sameYear, sameMonth, sameWeekday, place⟩
    have inRange := settled.inRange (by rw [sameWeekday, midweek])
    exact ⟨⟨⟨sameWeekday, sameMonth⟩, inRange, trivial, sameMonth, sameWeekday, place⟩, sameYear⟩

theorem isGoodFriday_iff (room : d.HasRoom 1) :
    isGoodFriday d = true ↔
      ∃ sunday, Date.easter d.year 1582 = .ok sunday ∧ sunday.serial - 2 = d.serial := by
  unfold isGoodFriday
  split
  next sunday found => simp [found, room.minus_eq_iff]
  next failed => simp [failed]

theorem goodFriday_dayIn?_iff (room : d.HasRoom 1) :
    Rule.goodFriday.dayIn? year = some d ↔ d.weekday = .friday ∧
      ∃ sunday, Date.easter year 1582 = .ok sunday ∧ sunday.serial - 2 = d.serial := by
  rw [Rule.dayIn?, Option.filter_eq_some_iff, beq_iff_eq, and_comm]
  cases Date.easter year 1582 with
  | ok sunday => simp [Except.toOption, room.minus_eq_iff]
  | error e => simp [Except.toOption]

theorem goodFriday_fallsOn_iff (room : d.HasRoom 1) :
    Rule.goodFriday.fallsOn d = true ∧ d.year = year ↔
      Rule.goodFriday.dayIn? year = some d := by
  rw [goodFriday_dayIn?_iff room]
  simp only [Rule.fallsOn, Bool.and_eq_true, Bool.or_eq_true, beq_iff_eq, isGoodFriday_iff room]
  constructor
  next =>
    rintro ⟨⟨⟨friday, -⟩, sunday⟩, rfl⟩
    exact ⟨friday, sunday⟩
  next =>
    rintro ⟨friday, sunday, isEaster, before⟩
    obtain ⟨-, rfl, season⟩ := Date.easter_inSeason isEaster
    obtain ⟨sameYear, month⟩ := season.month_before d (by omega)
    exact ⟨⟨⟨friday, month⟩, sunday, by rwa [sameYear], before⟩, sameYear⟩

-- The first Monday of a month is at most its seventh day, so that the day after is in the month.
theorem dayAfterMonday {monday : Date} {month : Nat} (months : 1 ≤ month ∧ month ≤ 12)
    (isFirst : Date.nthOn 1 .monday year month = some monday)
    (after : monday.serial + 1 = d.serial) :
    d.year = year ∧ d.month = month ∧ d.weekday = .tuesday := by
  obtain ⟨rfl, rfl, isMonday, place⟩ := (Date.nthOn_eq_some months (by decide)).mp isFirst
  have day := monday.day_bounds
  have serial := monday.serial_eq
  have length := Civil.monthLength_bounds monday.year monday.month
  have places := monday.place_signs
  have inMonth := (@Date.month_eq_iff d monday.year monday.month months).mpr
  rw [Date.placeFromStart] at place
  rw [Date.weekday_eq_iff] at isMonday ⊢
  refine ⟨(inMonth (by omega)).1, (inMonth (by omega)).2, ?_⟩
  simp only [Weekday.sundayIndex] at *
  omega

theorem isElectionDay_iff (room : d.HasRoom 1) :
    isElectionDay d = true ↔
      d.InRange ∧ ∃ monday, Date.nthOn 1 .monday d.year 11 = some monday ∧
        monday.serial + 1 = d.serial := by
  have found := fun monday =>
    @Date.nthWeekday_eq_ok_iff_nthOn .monday d.year 11 monday 1 (by decide) (by decide)
  unfold isElectionDay
  rw [Date.inRange_iff]
  cases result : Date.nthWeekday 1 .monday d.year 11 with
  | ok monday =>
    have isFirst := (found monday).mp result
    simp [isFirst, room.next_eq_iff]
  | error e =>
    simp only [Bool.false_eq_true, false_iff]
    rintro ⟨known, monday, isFirst, -⟩
    rw [(found monday).mpr ⟨known, isFirst⟩] at result
    cases result

theorem electionDay_fallsOn_iff (settled : Settled d) :
    Rule.electionDay.fallsOn d = true ∧ d.year = year ↔
      Rule.electionDay.dayIn? year = some d := by
  have room : d.HasRoom 1 := settled.room.mono (by decide)
  simp only [Rule.fallsOn, Rule.dayIn?, Bool.and_eq_true, beq_iff_eq, isElectionDay_iff room,
    Option.map_eq_some_iff, room.next_eq_iff]
  constructor
  next =>
    rintro ⟨⟨-, -, monday⟩, rfl⟩
    exact monday
  next =>
    rintro ⟨monday, isFirst, after⟩
    obtain ⟨rfl, november, tuesday⟩ := dayAfterMonday (by decide) isFirst after
    have inRange := settled.inRange (by rw [tuesday]; rfl)
    exact ⟨⟨⟨tuesday, november⟩, inRange, monday, isFirst, after⟩, rfl⟩

theorem fallsOn_iff_dayIn? {rule : Rule} (proper : rule.Proper) (settled : Settled d) :
    rule.fallsOn d = true ∧ d.year = year ↔ rule.dayIn? year = some d := by
  cases rule with
  | fixed month day => exact fixed_fallsOn_iff proper
  | nthWeekday nth weekday month => exact nthWeekday_fallsOn_iff proper settled
  | goodFriday => exact goodFriday_fallsOn_iff (settled.room.mono (by decide))
  | electionDay => exact electionDay_fallsOn_iff settled

def Feast.dayIn? (year : Int) (feast : Feast) : Option Date :=
  if feast.years year then feast.rule.dayIn? year else none

theorem any_fallsOn_iff (calendar : Calendar) (settled : Settled d) :
    (calendar.feasts.any fun feast => feast.fallsOn d) = true ↔
      ∃ year, some d ∈ calendar.feasts.map (Feast.dayIn? year) := by
  simp only [List.any_eq_true, List.mem_map, Feast.fallsOn, Feast.dayIn?, Bool.and_eq_true]
  constructor
  next =>
    rintro ⟨feast, member, falls, kept⟩
    have named := (fallsOn_iff_dayIn? (proper_of_mem_feasts calendar feast member) settled).mp
      ⟨falls, rfl⟩
    exact ⟨d.year, feast, member, by rw [if_pos kept, named]⟩
  next =>
    rintro ⟨year, feast, member, named⟩
    split at named
    next kept =>
      obtain ⟨falls, rfl⟩ :=
        (fallsOn_iff_dayIn? (proper_of_mem_feasts calendar feast member) settled).mpr named
      exact ⟨feast, member, falls, kept⟩
    next => cases named

end Holiday

end Almanac
