import Almanac.Proofs.Date.Civil
import Almanac.Week

set_option autoImplicit false

/-!
# The weeks of a year

The first days of weeks lie seven days apart. The weeks of a year begin on its first day on which a
week starts and end before that of the next year, and there are 52 or 53 of them.
-/

namespace Almanac

theorem Weekday.daysUntil_eq (a b : Weekday) :
    (a.daysUntil b : Int) = ((b.sundayIndex : Int) - a.sundayIndex) % 7 := by
  have first := a.sundayIndex_lt
  have second := b.sundayIndex_lt
  unfold Weekday.daysUntil
  omega

namespace Date

theorem sundayIndex_weekday (d : Date) : (d.weekday.sundayIndex : Int) = (d.serial + 4) % 7 :=
  Weekday.sundayIndex_afterSunday (d.serial + 4)

theorem weekday_eq_iff {d : Date} {weekday : Weekday} :
    d.weekday = weekday ↔ (weekday.sundayIndex : Int) = (d.serial + 4) % 7 := by
  rw [← sundayIndex_weekday]
  constructor
  next =>
    rintro rfl
    rfl
  next =>
    intro same
    apply Weekday.sundayIndex_injective
    omega

def daysIntoWeek (d : Date) (settings : Settings) : Int :=
  (d.serial + 4 - settings.weekStart.sundayIndex) % 7

theorem daysIntoWeek_bounds (d : Date) (settings : Settings) :
    0 ≤ d.daysIntoWeek settings ∧ d.daysIntoWeek settings < 7 := by
  unfold daysIntoWeek
  omega

variable {d : Date} {settings : Settings}

theorem startOfWeek_serial (room : d.HasRoom 6) :
    (d.startOfWeek settings).serial = d.serial - d.daysIntoWeek settings := by
  have offset : (settings.weekStart.daysUntil d.weekday : Int) = d.daysIntoWeek settings := by
    rw [Weekday.daysUntil_eq, sundayIndex_weekday, daysIntoWeek]
    omega
  have bounds := d.daysIntoWeek_bounds settings
  rw [startOfWeek, offset, room.minus_serial (by omega)]

theorem endOfWeek_serial (room : d.HasRoom 12) :
    (d.endOfWeek settings).serial = d.serial - d.daysIntoWeek settings + 6 := by
  have bounds := d.daysIntoWeek_bounds settings
  have start := @startOfWeek_serial d settings (room.mono (by decide))
  have startRoom : (d.startOfWeek settings).HasRoom 6 := room.near (by omega)
  rw [endOfWeek, startRoom.plus_serial (by omega), start]

def weekYearStart (settings : Settings) (year : Int) : Int :=
  (on year 1 1).serial + (settings.weekStart.sundayIndex - ((on year 1 1).serial + 4)) % 7

theorem weekYearStart_bounds (settings : Settings) (year : Int) :
    (on year 1 1).serial ≤ weekYearStart settings year ∧
      weekYearStart settings year < (on year 1 1).serial + 7 := by
  unfold weekYearStart
  omega

theorem weekYearStart_succ (settings : Settings) (year : Int) :
    weekYearStart settings (year + 1) = weekYearStart settings year + 364 ∨
      weekYearStart settings (year + 1) = weekYearStart settings year + 371 := by
  have length := Civil.yearLength_bounds year
  simp only [weekYearStart, newYear_serial, Civil.daysBeforeYear_succ]
  omega

-- The first week of a year too far off is cut to the last day.
theorem firstWeekStart_eq (year : Int) (settings : Settings) :
    firstWeekStart year settings = saturate (weekYearStart settings year) := by
  have offset : ((on year 1 1).weekday.daysUntil settings.weekStart : Int) =
      (settings.weekStart.sundayIndex - ((on year 1 1).serial + 4)) % 7 := by
    rw [Weekday.daysUntil_eq, sundayIndex_weekday]
    omega
  rw [firstWeekStart, plus, offset, weekYearStart]

theorem firstWeekStart_serial {year : Int}
    (room : (on year 1 1).HasRoom 6) :
    (firstWeekStart year settings).serial = weekYearStart settings year := by
  have near := weekYearStart_bounds settings year
  unfold HasRoom at room
  rw [firstWeekStart_eq]
  simp only [saturate]
  omega

def weekYear (d : Date) (settings : Settings) : Int :=
  if d < firstWeekStart d.year settings then d.year - 1 else d.year

theorem weekOrigin_eq : d.weekOrigin settings = firstWeekStart (d.weekYear settings) settings := by
  unfold weekOrigin weekYear
  dsimp only
  split <;> rfl

theorem weekYear_cases (d : Date) (settings : Settings) :
    d.weekYear settings = d.year - 1 ∨ d.weekYear settings = d.year := by
  unfold weekYear
  split
  next => exact .inl rfl
  next => exact .inr rfl

theorem weekOrigin_serial (room : d.HasRoom 800) :
    (d.weekOrigin settings).serial = weekYearStart settings (d.weekYear settings) := by
  have inYear := d.year_spec
  have length := Civil.yearLength_bounds d.year
  have lengthBefore := Civil.yearLength_bounds (d.year - 1)
  have this := newYear_succ d.year
  have before := newYear_succ (d.year - 1)
  rw [Int.sub_add_cancel] at before
  rw [weekOrigin_eq]
  apply firstWeekStart_serial
  apply room.near
  rcases weekYear_cases d settings with same | same <;> rw [same] <;> omega

theorem weekYear_spec (room : d.HasRoom 800) :
    weekYearStart settings (d.weekYear settings) ≤ d.serial ∧
      d.serial < weekYearStart settings (d.weekYear settings + 1) := by
  have inYear := d.year_spec
  have first : (firstWeekStart d.year settings).serial = weekYearStart settings d.year := by
    have length := Civil.yearLength_bounds d.year
    have this := newYear_succ d.year
    exact firstWeekStart_serial (room.near (by omega))
  have next := weekYearStart_bounds settings (d.year + 1)
  have before := weekYearStart_bounds settings (d.year - 1)
  have lengthBefore := Civil.yearLength_bounds (d.year - 1)
  have yearBefore := newYear_succ (d.year - 1)
  rw [Int.sub_add_cancel] at yearBefore
  unfold weekYear
  split
  next early =>
    rw [lt_def, first] at early
    rw [Int.sub_add_cancel]
    omega
  next late =>
    rw [lt_def, first] at late
    omega

theorem weekYearStart_mono (settings : Settings) {year later : Int} (h : year ≤ later) :
    weekYearStart settings year ≤ weekYearStart settings later := by
  have start := weekYearStart_bounds settings year
  by_cases same : year = later
  next => exact Int.le_of_eq (by rw [same])
  next =>
    have laterStart := weekYearStart_bounds settings later
    have years := Civil.daysBeforeYear_le h
    simp only [newYear_serial] at start laterStart
    omega

theorem year_unique {starts : Int → Int}
    (mono : ∀ {year later : Int}, year ≤ later → starts year ≤ starts later) {n year other : Int}
    (within : starts year ≤ n ∧ n < starts (year + 1))
    (also : starts other ≤ n ∧ n < starts (other + 1)) : other = year := by
  rcases Int.lt_trichotomy other year with less | same | more
  next =>
    -- The days of another year all lie before these or all after them.
    have apart : starts (other + 1) ≤ starts year := mono (by omega)
    omega
  next => exact same
  next =>
    have apart : starts (year + 1) ≤ starts other := mono (by omega)
    omega

theorem weekYear_eq {year : Int} (room : d.HasRoom 800)
    (h : weekYearStart settings year ≤ d.serial ∧ d.serial < weekYearStart settings (year + 1)) :
    d.weekYear settings = year :=
  year_unique (weekYearStart_mono settings) h (weekYear_spec room)

theorem weekNumber_eq (room : d.HasRoom 800) :
    (d.weekNumber settings : Int) =
      (d.serial - weekYearStart settings (d.weekYear settings)) / 7 + 1 := by
  have own := @weekYear_spec d settings room
  rw [weekNumber, weekOrigin_serial room]
  omega

theorem daysIntoWeek_eq (d : Date) (settings : Settings) (year : Int) :
    d.daysIntoWeek settings = (d.serial - weekYearStart settings year) % 7 := by
  unfold daysIntoWeek weekYearStart
  omega

theorem weekNumber_later (room : d.HasRoom 900) :
    (d.plus 7).weekNumber settings =
      if d.serial + 7 < weekYearStart settings (d.weekYear settings + 1) then
        d.weekNumber settings + 1
      else 1 := by
  have own := @weekYear_spec d settings (room.mono (by decide))
  have number := @weekNumber_eq d settings (room.mono (by decide))
  have later : (d.plus 7).serial = d.serial + 7 := room.plus_serial (by decide)
  have laterRoom : (d.plus 7).HasRoom 800 := room.near (by omega)
  have laterNumber := @weekNumber_eq (d.plus 7) settings laterRoom
  split
  next within =>
    have year : (d.plus 7).weekYear settings = d.weekYear settings :=
      weekYear_eq laterRoom (by omega)
    rw [year, later] at laterNumber
    omega
  next beyond =>
    -- The next year has 52 weeks at least, so the day a week later lies in its first one.
    have following := weekYearStart_succ settings (d.weekYear settings + 1)
    have year : (d.plus 7).weekYear settings = d.weekYear settings + 1 :=
      weekYear_eq laterRoom (by omega)
    rw [year, later] at laterNumber
    omega

end Date

end Almanac
