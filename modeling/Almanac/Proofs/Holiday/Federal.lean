import Almanac.Proofs.Holiday.Yearly

set_option autoImplicit false

/-!
# The federal holidays year by year

The holidays that the federal calendar finds by looking at one day and at the days next to it are
the observed days of the statutory holidays of the years.
-/

namespace Almanac.Holiday.Federal

def datedHolidays (year : Int) : List Date :=
  [Date.on year 1 1, Date.on year 7 4, Date.on year 11 11, Date.on year 12 25] ++
    if 2021 ≤ year then [Date.on year 6 19] else []

def weekdayHolidays (year : Int) : List Date :=
  [Date.nthOn 3 .monday year 1, Date.nthOn 3 .monday year 2, Date.nthOn (-1) .monday year 5,
    Date.nthOn 1 .monday year 9, Date.nthOn 2 .monday year 10,
    Date.nthOn 4 .thursday year 11].filterMap id

def observedDay (holiday : Date) : Date :=
  match holiday.weekday with
  | .saturday => holiday.previous
  | .sunday => holiday.next
  | _ => holiday

-- From a Sunday the day moves to Monday, and on a Saturday it is not observed.
def inaugurations (year : Int) : List Date :=
  if 1965 < year ∧ year % 4 = 1 then
    match (Date.on year 1 20).weekday with
    | .saturday => []
    | .sunday => [Date.on year 1 21]
    | _ => [Date.on year 1 20]
  else []

variable {d : Date} {year : Int}

theorem mem_holidays_iff :
    d ∈ datedHolidays year ∨ d ∈ weekdayHolidays year ↔
      some d ∈ feasts.map (Feast.dayIn? year) := by
  have juneteenth : d ∈ (if 2021 ≤ year then [Date.on year 6 19] else []) ↔
      2021 ≤ year ∧ d = Date.on year 6 19 := by
    by_cases h : 2021 ≤ year
    next => simp [h]
    next => simp [h]
  simp only [datedHolidays, weekdayHolidays, List.mem_append, juneteenth, List.mem_filterMap, id,
    exists_eq_right, feasts, List.map_cons, List.map_nil, List.mem_cons, List.not_mem_nil, or_false,
    Feast.dayIn?, if_true, Option.some_eq_ite_none_right, decide_eq_true_eq, Rule.dayIn?,
    Option.some.injEq, or_assoc]

theorem isFeast_iff (settled : Settled d) :
    isFeast d = true ↔ ∃ year, d ∈ datedHolidays year ∨ d ∈ weekdayHolidays year :=
  (any_fallsOn_iff .federal settled).trans
    (exists_congr fun _ => mem_holidays_iff.symm)

theorem weekday_of_mem_weekdayHolidays (member : d ∈ weekdayHolidays year) :
    d.weekday.isWeekend = false := by
  simp only [weekdayHolidays, List.mem_filterMap, id, exists_eq_right, List.mem_cons,
    List.not_mem_nil, or_false] at member
  have named : ∃ nth : Int, nth ≠ 0 ∧ ∃ month, (1 ≤ month ∧ month ≤ 12) ∧
      ∃ weekday : Weekday, weekday.isWeekend = false ∧
        Date.nthOn nth weekday year month = some d := by
    rcases member with h | h | h | h | h | h
    all_goals exact ⟨_, by decide, _, by decide, _, rfl, h.symm⟩
  obtain ⟨nth, notZero, month, months, weekday, midweek, isNth⟩ := named
  obtain ⟨-, -, sameWeekday, -⟩ := (Date.nthOn_eq_some months notZero).mp isNth
  rw [sameWeekday, midweek]

theorem observedDay_eq_iff (room : d.HasRoom 1) {holiday : Date} :
    d = observedDay holiday ↔
      (d.isWeekend = false ∧ holiday = d) ∨ (d.weekday = .monday ∧ holiday = d.previous) ∨
        (d.weekday = .friday ∧ holiday = d.next) := by
  have midweek : (d.isWeekend = false ∧ holiday = d) ↔
      ((holiday.weekday ≠ .saturday ∧ holiday.weekday ≠ .sunday) ∧ d = holiday) := by
    rw [← Bool.not_eq_true, Date.isWeekend_iff, not_or, eq_comm (a := d)]
    apply and_congr_left
    rintro rfl
    rfl
  rw [midweek, ← room.moved_from_sunday, ← room.moved_from_saturday]
  unfold observedDay
  split
  next saturday => simp [saturday]
  next sunday => simp [sunday]
  next notSaturday notSunday =>
    have weekday : holiday.weekday ≠ .saturday ∧ holiday.weekday ≠ .sunday :=
      ⟨notSaturday, notSunday⟩
    simp [weekday]

theorem mem_inaugurations_iff :
    d ∈ inaugurations year ↔
      (1965 < year ∧ year % 4 = 1) ∧
        ((d = Date.on year 1 20 ∧ d.isWeekend = false) ∨
          (d = Date.on year 1 21 ∧ d.weekday = .monday)) := by
  have moved : (Date.on year 1 21).weekday = .monday ↔ (Date.on year 1 20).weekday = .sunday := by
    have first := Date.on_serial year 1 20
    have second := Date.on_serial year 1 21
    rw [Date.weekday_eq_iff, Date.weekday_eq_iff]
    simp only [Weekday.sundayIndex]
    omega
  rw [← Bool.not_eq_true, Date.isWeekend_iff]
  unfold inaugurations
  split
  next inaugural =>
    split
    next saturday => grind
    next sunday => grind
    next => grind
  next other => simp [other]

theorem isInauguration_iff : isInauguration d = true ↔ ∃ year, d ∈ inaugurations year := by
  have january : ∀ year day, 1 ≤ day ∧ day ≤ 28 →
      (d = Date.on year 1 day ↔ d.year = year ∧ d.month = 1 ∧ d.day = day) := by
    intro year day early
    have valid := Date.valid_middle year (show 1 ≤ 1 ∧ 1 ≤ 12 by decide) early
    constructor
    next =>
      rintro rfl
      exact ⟨Date.year_on valid, Date.month_on valid, Date.day_on valid⟩
    next =>
      rintro ⟨rfl, inJanuary, rfl⟩
      rw [← inJanuary, d.on_parts]
  simp only [mem_inaugurations_iff, january _ 20 (by decide), january _ 21 (by decide),
    isInauguration, Bool.and_eq_true, Bool.or_eq_true, beq_iff_eq, decide_eq_true_eq,
    Bool.not_eq_true']
  constructor
  next =>
    rintro ⟨⟨⟨fourth, later⟩, inJanuary⟩, ⟨day, midweek⟩ | ⟨day, monday⟩⟩
    next => exact ⟨d.year, ⟨later, fourth⟩, .inl ⟨⟨rfl, inJanuary, day⟩, midweek⟩⟩
    next => exact ⟨d.year, ⟨later, fourth⟩, .inr ⟨⟨rfl, inJanuary, day⟩, monday⟩⟩
  next =>
    rintro ⟨year, ⟨later, fourth⟩,
      ⟨⟨rfl, inJanuary, day⟩, midweek⟩ | ⟨⟨rfl, inJanuary, day⟩, monday⟩⟩
    next => exact ⟨⟨⟨fourth, later⟩, inJanuary⟩, .inl ⟨day, midweek⟩⟩
    next => exact ⟨⟨⟨fourth, later⟩, inJanuary⟩, .inr ⟨day, monday⟩⟩

theorem exists_observedDay_iff (inRange : d.InRange) (midweek : d.isWeekend = false) :
    (∃ year, (∃ holiday ∈ datedHolidays year, d = observedDay holiday) ∨
      d ∈ weekdayHolidays year) ↔
      isFeast d = true ∨ isObserved d = true := by
  have room : d.HasRoom 1 := inRange.hasRoom (by decide)
  have own := isFeast_iff (settled_of_inRange inRange)
  simp only [isObserved, Bool.or_eq_true, Bool.and_eq_true, beq_iff_eq]
  constructor
  next =>
    rintro ⟨year, ⟨holiday, dated, observed⟩ | onWeekday⟩
    next =>
      rcases (observedDay_eq_iff room).mp observed with ⟨-, rfl⟩ | ⟨monday, rfl⟩ | ⟨friday, rfl⟩
      next => exact .inl (own.mpr ⟨year, .inl dated⟩)
      next =>
        have feast := (isFeast_iff (settled_previous inRange monday)).mpr ⟨year, .inl dated⟩
        exact .inr (.inr ⟨monday, feast⟩)
      next =>
        have feast := (isFeast_iff (settled_next inRange friday)).mpr ⟨year, .inl dated⟩
        exact .inr (.inl ⟨friday, feast⟩)
    next => exact .inl (own.mpr ⟨year, .inr onWeekday⟩)
  next =>
    rintro (feast | ⟨friday, feast⟩ | ⟨monday, feast⟩)
    next =>
      obtain ⟨year, dated | onWeekday⟩ := own.mp feast
      next => exact ⟨year, .inl ⟨d, dated, (observedDay_eq_iff room).mpr (.inl ⟨midweek, rfl⟩)⟩⟩
      next => exact ⟨year, .inr onWeekday⟩
    next =>
      have saturday := (room.weekday_next_eq_iff .friday).mpr friday
      obtain ⟨year, dated | onWeekday⟩ := (isFeast_iff (settled_next inRange friday)).mp feast
      next =>
        have observed := (observedDay_eq_iff room).mpr (.inr (.inr ⟨friday, rfl⟩))
        exact ⟨year, .inl ⟨d.next, dated, observed⟩⟩
      next =>
        -- The holidays that have a weekday are never on a Saturday.
        have never := weekday_of_mem_weekdayHolidays onWeekday
        rw [saturday] at never
        cases never
    next =>
      have sunday := (room.weekday_previous_eq_iff .monday).mpr monday
      obtain ⟨year, dated | onWeekday⟩ := (isFeast_iff (settled_previous inRange monday)).mp feast
      next =>
        have observed := (observedDay_eq_iff room).mpr (.inr (.inl ⟨monday, rfl⟩))
        exact ⟨year, .inl ⟨d.previous, dated, observed⟩⟩
      next =>
        have never := weekday_of_mem_weekdayHolidays onWeekday
        rw [sunday] at never
        cases never

/-- The federal government is closed at the end of a week, by decree, for a president's funeral, on
the statutory holidays of the years as they are observed, on the Friday after a Thursday Christmas
and for an inauguration. -/
theorem isHoliday_iff_statutory (inRange : d.InRange) :
    Calendar.federal.isHoliday d = true ↔
      d.weekday = .saturday ∨ d.weekday = .sunday ∨ d ∈ decreed ∨ d ∈ funerals ∨
        (∃ year, (∃ holiday ∈ datedHolidays year, d = observedDay holiday) ∨
          d ∈ weekdayHolidays year) ∨
        (d.weekday = .friday ∧ d.month = 12 ∧ d.day = 26) ∨
        ∃ year, d ∈ inaugurations year := by
  simp only [Calendar.isHoliday, isHoliday, Bool.or_eq_true, List.contains_iff_mem,
    isInauguration_iff, isDayAfterChristmas, Bool.and_eq_true, beq_iff_eq]
  cases weekend : d.isWeekend with
  | true =>
    have := Date.isWeekend_iff.mp weekend
    grind
  | false =>
    have midweek : ¬(d.weekday = .saturday ∨ d.weekday = .sunday) := by
      rw [← Date.isWeekend_iff, weekend]
      exact Bool.false_ne_true
    rw [exists_observedDay_iff inRange weekend]
    grind

theorem isHoliday_iff_statutory_last_day :
    Date.latest.InRange ∧ Calendar.federal.isHoliday Date.latest = true := by
  have inRange : Date.latest.InRange := by decide
  refine ⟨inRange, (isHoliday_iff_statutory inRange).mpr ?_⟩
  refine .inr (.inr (.inr (.inr (.inl ⟨10000, .inl ⟨Date.on 10000 1 1, ?_, ?_⟩⟩))))
  next => simp [datedHolidays]
  next => decide

end Almanac.Holiday.Federal
