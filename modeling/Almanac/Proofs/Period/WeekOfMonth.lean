import Almanac.Period.Resolve
import Almanac.Proofs.Date.Checked
import Almanac.Proofs.Week
import Mathlib.Logic.ExistsUnique

set_option autoImplicit false

/-!
# The weeks of a month

The weeks that hold the days of a month are cut off at its ends. What is left of them follows one
another from the first of the month to its last day, so that each day lies in one week.
-/

namespace Almanac.Period

/-- A day of a month in the nth of the weeks counted from the one with the first of the month. -/
def InWeekOfMonth (settings : Settings) (year : Int) (month week : Nat) (d : Date) : Prop :=
  (d.year = year ∧ d.month = month) ∧
    d.startOfWeek settings =
      ((Date.on year month 1).startOfWeek settings).plus (7 * ((week : Int) - 1))

section

variable (settings : Settings) (year : Int) (month : Nat)

def leadingDays : Int :=
  (Date.on year month 1).daysIntoWeek settings

def weekCount : Nat :=
  ((leadingDays settings year month + Civil.monthLength year month + 6) / 7).toNat

-- The two ends of a week of a month are in this order when the month has that week.
def weekFirst (week : Nat) : Date :=
  ⟨(Date.on year month 1).serial +
    max 0 (7 * ((week : Int) - 1) - leadingDays settings year month)⟩

def weekLast (week : Nat) : Date :=
  ⟨(Date.on year month 1).serial + min ((Civil.monthLength year month : Int) - 1)
    (7 * ((week : Int) - 1) - leadingDays settings year month + 6)⟩

theorem leadingDays_eq : leadingDays settings year month =
    ((Date.on year month 1).serial + 4 - settings.weekStart.sundayIndex) % 7 :=
  rfl

theorem leadingDays_bounds :
    0 ≤ leadingDays settings year month ∧ leadingDays settings year month < 7 :=
  Date.daysIntoWeek_bounds _ settings

theorem weekCount_bounds :
    4 ≤ weekCount settings year month ∧ weekCount settings year month ≤ 6 := by
  have leading := leadingDays_bounds settings year month
  have length := Civil.monthLength_bounds year month
  unfold weekCount
  omega

theorem weekFirst_le_weekLast_iff {week : Nat} (positive : 1 ≤ week) :
    weekFirst settings year month week ≤ weekLast settings year month week ↔
      week ≤ weekCount settings year month := by
  have leading := leadingDays_bounds settings year month
  have length := Civil.monthLength_bounds year month
  simp only [Date.le_def, weekFirst, weekLast, weekCount]
  omega

theorem weekFirst_one : weekFirst settings year month 1 = Date.on year month 1 := by
  have leading := leadingDays_bounds settings year month
  apply Date.ext
  simp only [weekFirst]
  omega

theorem weekLast_weekCount : weekLast settings year month (weekCount settings year month) =
    Date.on year month (Civil.monthLength year month) := by
  have leading := leadingDays_bounds settings year month
  have length := Civil.monthLength_bounds year month
  apply Date.ext
  rw [Date.on_serial]
  simp only [weekLast, weekCount]
  omega

end

variable {settings : Settings} {year : Int} {month week : Nat} {d : Date}

theorem week_unique {other : Nat}
    (within : weekFirst settings year month week ≤ d ∧ d ≤ weekLast settings year month week)
    (also : weekFirst settings year month other ≤ d ∧ d ≤ weekLast settings year month other) :
    other = week := by
  simp only [Date.le_def, weekFirst, weekLast] at within also
  omega

section

variable (known : 1 ≤ year ∧ year ≤ 9999) (months : 1 ≤ month ∧ month ≤ 12)

include months

theorem exists_week (settings : Settings) (inMonth : d.year = year ∧ d.month = month) :
    ∃ week, (1 ≤ week ∧ week ≤ weekCount settings year month) ∧
      weekFirst settings year month week ≤ d ∧ d ≤ weekLast settings year month week := by
  have leading := leadingDays_bounds settings year month
  rw [Date.month_eq_iff months] at inMonth
  let days := d.serial - (Date.on year month 1).serial + leadingDays settings year month
  refine ⟨(days / 7).toNat + 1, ?_, ?_⟩
  next =>
    unfold weekCount
    omega
  next =>
    simp only [Date.le_def, weekFirst, weekLast]
    omega

include known

theorem weekLast_of_lt (positive : 1 ≤ week) (notLast : week < weekCount settings year month) :
    (weekLast settings year month week).plus 1 = weekFirst settings year month (week + 1) ∧
      (weekLast settings year month week).weekday = settings.weekEnd ∧
      (weekFirst settings year month (week + 1)).weekday = settings.weekStart := by
  have leading := leadingDays_bounds settings year month
  have into := leadingDays_eq settings year month
  have length := Civil.monthLength_bounds year month
  have last : (weekLast settings year month week).serial =
      (Date.on year month 1).serial - leadingDays settings year month + 7 * week - 1 := by
    unfold weekCount at notLast
    simp only [weekLast]
    omega
  have next : (weekFirst settings year month (week + 1)).serial =
      (Date.on year month 1).serial - leadingDays settings year month + 7 * week := by
    simp only [weekFirst]
    omega
  refine ⟨?_, ?_, ?_⟩
  next =>
    have few := (weekCount_bounds settings year month).2
    have room : (weekLast settings year month week).HasRoom 1 :=
      (Date.monthStart_hasRoom known months).near (by omega)
    apply Date.ext
    rw [room.plus_serial (by decide), last, next]
    omega
  next =>
    have weekEnd : (settings.weekEnd.sundayIndex : Int) = _ := Weekday.sundayIndex_afterSunday _
    rw [Date.weekday_eq_iff, weekEnd, last]
    omega
  next =>
    have weekStart := settings.weekStart.sundayIndex_lt
    rw [Date.weekday_eq_iff, next]
    omega

theorem weekStart_serial (settings : Settings) (positive : 1 ≤ week) :
    (((Date.on year month 1).startOfWeek settings).plus (7 * ((week : Int) - 1))).serial =
      min ((Date.on year month 1).serial - leadingDays settings year month +
        7 * ((week : Int) - 1)) Date.ceiling.serial := by
  have leading := leadingDays_bounds settings year month
  have room := Date.monthStart_hasRoom known months
  have start := @Date.startOfWeek_serial _ settings (room.mono (by decide))
  rw [← leadingDays] at start
  unfold Date.HasRoom at room
  rw [Date.plus_serial_of_nonneg (by omega) (by omega), start]

theorem weekEnd_serial (settings : Settings) (positive : 1 ≤ week) :
    (((Date.on year month 1).endOfWeek settings).plus (7 * ((week : Int) - 1))).serial =
      min ((Date.on year month 1).serial - leadingDays settings year month + 6 +
        7 * ((week : Int) - 1)) Date.ceiling.serial := by
  have leading := leadingDays_bounds settings year month
  have room := Date.monthStart_hasRoom known months
  have ends := @Date.endOfWeek_serial _ settings (room.mono (by decide))
  rw [← leadingDays] at ends
  unfold Date.HasRoom at room
  rw [Date.plus_serial_of_nonneg (by omega) (by omega), ends]

theorem start_after_month_iff (positive : 1 ≤ week) :
    (Date.on year month 1).endOfMonth <
        max (((Date.on year month 1).startOfWeek settings).plus (7 * ((week : Int) - 1)))
          (Date.on year month 1) ↔
      weekCount settings year month < week := by
  have leading := leadingDays_bounds settings year month
  have room := Date.monthStart_hasRoom known months
  have length := Civil.monthLength_bounds year month
  have start := weekStart_serial known months settings positive
  unfold Date.HasRoom at room
  rw [Date.lt_def, Date.max_serial, Date.monthEnd_serial months, start, weekCount]
  omega

theorem max_weekStart_eq (positive : 1 ≤ week) (held : week ≤ weekCount settings year month) :
    max (((Date.on year month 1).startOfWeek settings).plus (7 * ((week : Int) - 1)))
      (Date.on year month 1) = weekFirst settings year month week := by
  have leading := leadingDays_bounds settings year month
  have few := (weekCount_bounds settings year month).2
  have room := Date.monthStart_hasRoom known months
  have start := weekStart_serial known months settings positive
  unfold Date.HasRoom at room
  apply Date.ext
  rw [Date.max_serial, start, weekFirst]
  dsimp only
  omega

theorem min_weekEnd_eq (positive : 1 ≤ week) (held : week ≤ weekCount settings year month) :
    min (((Date.on year month 1).endOfWeek settings).plus (7 * ((week : Int) - 1)))
      (Date.on year month 1).endOfMonth = weekLast settings year month week := by
  have leading := leadingDays_bounds settings year month
  have few := (weekCount_bounds settings year month).2
  have room := Date.monthStart_hasRoom known months
  have ends := weekEnd_serial known months settings positive
  unfold Date.HasRoom at room
  apply Date.ext
  rw [Date.min_serial, ends, Date.monthEnd_serial months, weekLast]
  dsimp only
  omega

theorem weekOfMonthEdge_eq (positive : 1 ≤ week) (edge : Edge) :
    weekOfMonthEdge year month week settings edge =
      if week ≤ weekCount settings year month then
        .ok (edge.pick (weekFirst settings year month week) (weekLast settings year month week))
      else .error (.noSuchOccurrence (.week week year month)) := by
  have beyond := @start_after_month_iff settings _ _ _ known months positive
  rw [weekOfMonthEdge, Date.ofYearMonthDay_of_valid known (Date.valid_first year months)]
  dsimp only [bind, Except.bind]
  by_cases held : week ≤ weekCount settings year month
  next =>
    rw [if_neg (mt beyond.mp (Nat.not_lt.mpr held)), if_pos held,
      max_weekStart_eq known months positive held, min_weekEnd_eq known months positive held]
    rfl
  next => rw [if_pos (beyond.mpr (Nat.lt_of_not_le held)), if_neg held]

theorem inWeekOfMonth_iff (positive : 1 ≤ week) :
    InWeekOfMonth settings year month week d ↔
      weekFirst settings year month week ≤ d ∧ d ≤ weekLast settings year month week := by
  have leading := leadingDays_bounds settings year month
  have into := leadingDays_eq settings year month
  have length := Civil.monthLength_bounds year month
  have room := Date.monthStart_hasRoom known months
  have start := weekStart_serial known months settings positive
  rw [InWeekOfMonth, Date.month_eq_iff months, Date.eq_iff_serial, start, Date.le_def, Date.le_def,
    weekFirst, weekLast]
  dsimp only
  by_cases inMonth : (Date.on year month 1).serial ≤ d.serial ∧
      d.serial < (Date.on year month 1).serial + Civil.monthLength year month
  next =>
    have dayRoom : d.HasRoom 6 := room.near (by omega)
    unfold Date.HasRoom at room dayRoom
    rw [Date.startOfWeek_serial dayRoom]
    unfold Date.daysIntoWeek
    omega
  next => omega

theorem exists_inWeekOfMonth_iff (positive : 1 ≤ week) :
    (∃ d, InWeekOfMonth settings year month week d) ↔ week ≤ weekCount settings year month := by
  rw [← weekFirst_le_weekLast_iff settings year month positive]
  constructor
  next =>
    rintro ⟨d, inside⟩
    have bounds := (inWeekOfMonth_iff known months positive).mp inside
    exact Int.le_trans bounds.1 bounds.2
  next =>
    intro order
    exact ⟨_, (inWeekOfMonth_iff known months positive).mpr ⟨Int.le_refl _, order⟩⟩

end

def HasEnds (period : Period) (today : Date) (settings : Settings) (first last : Date) : Prop :=
  ∀ edge : Edge, period.resolve edge today settings = .ok (some (edge.pick first last))

section

variable (settings : Settings) {y : Option Int} {m : Option Nat} {today : Date}
  (thisYear : y.getD today.year = year) (thisMonth : m.getD today.month = month)
  (known : 1 ≤ year ∧ year ≤ 9999) (months : 1 ≤ month ∧ month ≤ 12)

include thisYear thisMonth known months

theorem hasEnds_weekOfMonth (positive : 1 ≤ week) (held : week ≤ weekCount settings year month) :
    (weekOfMonth y m week).HasEnds today settings (weekFirst settings year month week)
      (weekLast settings year month week) := by
  intro edge
  rw [resolve, thisYear, thisMonth, weekOfMonthEdge_eq known months positive, if_pos held]
  rfl

theorem resolve_weekOfMonth_beyond (beyond : weekCount settings year month < week) (edge : Edge) :
    (weekOfMonth y m week).resolve edge today settings =
      .error (.noSuchOccurrence (.week week year month)) := by
  rw [resolve, thisYear, thisMonth, weekOfMonthEdge_eq known months (by omega),
    if_neg (Nat.not_le.mpr beyond)]
  rfl

theorem eq_of_hasEnds_weekOfMonth (positive : 1 ≤ week) {first last : Date}
    (ends : (weekOfMonth y m week).HasEnds today settings first last) :
    first = weekFirst settings year month week ∧ last = weekLast settings year month week := by
  have start := ends .first
  have stop := ends .last
  by_cases held : week ≤ weekCount settings year month
  next =>
    have own := hasEnds_weekOfMonth settings thisYear thisMonth known months positive held
    rw [own] at start stop
    cases start
    cases stop
    exact ⟨rfl, rfl⟩
  next =>
    rw [resolve_weekOfMonth_beyond settings thisYear thisMonth known months (by omega)] at start
    cases start

theorem resolve_weekOfMonth_eq_error_iff (positive : 1 ≤ week) (edge : Edge) :
    (weekOfMonth y m week).resolve edge today settings =
        .error (.noSuchOccurrence (.week week year month)) ↔
      ∀ d, ¬InWeekOfMonth settings year month week d := by
  rw [← not_exists, exists_inWeekOfMonth_iff known months positive]
  constructor
  next =>
    intro missing held
    rw [hasEnds_weekOfMonth settings thisYear thisMonth known months positive held edge] at missing
    cases missing
  next =>
    intro beyond
    exact resolve_weekOfMonth_beyond settings thisYear thisMonth known months (by omega) edge

end

/-- The weeks of a month follow one another from its first day to its last, and each day of the
month lies in one of them. A month has four to six weeks, those in which a day of it lies. -/
theorem weeksOfMonth_partition {y : Option Int} {m : Option Nat} {today : Date} {year : Int}
    {month : Nat} (settings : Settings) (thisYear : y.getD today.year = year)
    (thisMonth : m.getD today.month = month) (known : 1 ≤ year ∧ year ≤ 9999)
    (months : 1 ≤ month ∧ month ≤ 12) :
    (∀ d : Date, d.year = year ∧ d.month = month →
      ∃! week, (1 ≤ week ∧ week ≤ 6) ∧ ∃ first last,
        (weekOfMonth y m week).HasEnds today settings first last ∧ first ≤ d ∧ d ≤ last) ∧
    (∀ week edge, 1 ≤ week →
      ((weekOfMonth y m week).resolve edge today settings =
          .error (.noSuchOccurrence (.week week year month)) ↔
        ∀ d, ¬InWeekOfMonth settings year month week d)) ∧
    ∃ (count : Nat) (first last : Nat → Date), (4 ≤ count ∧ count ≤ 6) ∧
      (∀ week, 1 ≤ week → week ≤ count →
        (weekOfMonth y m week).HasEnds today settings (first week) (last week)) ∧
      (∀ week edge, count < week → (weekOfMonth y m week).resolve edge today settings =
        .error (.noSuchOccurrence (.week week year month))) ∧
      first 1 = Date.on year month 1 ∧
      last count = Date.on year month (Civil.monthLength year month) ∧
      ∀ week, 1 ≤ week → week < count → (last week).plus 1 = first (week + 1) ∧
        (last week).weekday = settings.weekEnd ∧
        (first (week + 1)).weekday = settings.weekStart := by
  have count := weekCount_bounds settings year month
  refine ⟨?_, ?_, ?_⟩
  next =>
    intro d inMonth
    obtain ⟨week, held, within⟩ := exists_week months settings inMonth
    have ends := hasEnds_weekOfMonth settings thisYear thisMonth known months held.1 held.2
    refine ⟨week, ⟨by omega, _, _, ends, within⟩, ?_⟩
    rintro other ⟨bounds, first, last, otherEnds, also⟩
    obtain ⟨rfl, rfl⟩ :=
      eq_of_hasEnds_weekOfMonth settings thisYear thisMonth known months bounds.1 otherEnds
    exact week_unique within also
  next =>
    intro week edge positive
    exact resolve_weekOfMonth_eq_error_iff settings thisYear thisMonth known months positive edge
  next =>
    refine ⟨weekCount settings year month, weekFirst settings year month,
      weekLast settings year month, count, ?_, ?_, weekFirst_one settings year month,
      weekLast_weekCount settings year month, fun week => weekLast_of_lt known months⟩
    next => exact fun week => hasEnds_weekOfMonth settings thisYear thisMonth known months
    next =>
      intro week edge beyond
      exact resolve_weekOfMonth_beyond settings thisYear thisMonth known months beyond edge

theorem weeksOfMonth_partition_december :
    (none : Option Int).getD (Date.on 2012 7 18).year = 2012 ∧
      (some 12).getD (Date.on 2012 7 18).month = 12 ∧
      InWeekOfMonth {} 2012 12 6 (Date.on 2012 12 31) ∧
      (weekOfMonth none (some 12) 6).resolve .first (Date.on 2012 7 18) {} ≠
        .error (.noSuchOccurrence (.week 6 2012 12)) ∧
      ∃! week, (1 ≤ week ∧ week ≤ 6) ∧ ∃ first last,
        (weekOfMonth none (some 12) week).HasEnds (Date.on 2012 7 18) {} first last ∧
          first ≤ Date.on 2012 12 31 ∧ Date.on 2012 12 31 ≤ last := by
  have thisYear : (none : Option Int).getD (Date.on 2012 7 18).year = 2012 := by decide
  have thisMonth : (some 12).getD (Date.on 2012 7 18).month = 12 := by decide
  have inMonth : (Date.on 2012 12 31).year = 2012 ∧ (Date.on 2012 12 31).month = 12 := by decide
  have sixth : InWeekOfMonth {} 2012 12 6 (Date.on 2012 12 31) := ⟨inMonth, by decide⟩
  obtain ⟨each, missing, -⟩ :=
    weeksOfMonth_partition {} thisYear thisMonth (by decide) (by decide)
  refine ⟨thisYear, thisMonth, sixth, ?_, each _ inMonth⟩
  intro gone
  exact (missing 6 .first (by decide)).mp gone _ sixth

end Almanac.Period
