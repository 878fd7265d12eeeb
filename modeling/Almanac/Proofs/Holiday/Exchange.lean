import Almanac.Proofs.Holiday.Yearly

set_option autoImplicit false

/-!
# The exchange's holidays year by year

The holidays of the exchange, which it finds by looking at one day and at the days next to it, are
those of a list for each year, each kept on its own day or on one next to it.
-/

namespace Almanac.Holiday.Exchange

def goodFriday (year : Int) : Option Date :=
  match Date.easter year 1582 with
  | .ok sunday => if (sunday.minus 2).weekday = .friday then some (sunday.minus 2) else none
  | .error _ => none

def thanksgivingPlace (year : Int) : Int :=
  if year ≤ 1938 then -1
  else if year ≤ 1941 then -2
  else if year = 1942 then -1
  else 4

def regularHolidays (year : Int) : List Date :=
  [ some (Date.on year 1 1),
    some (Date.on year 7 4),
    some (Date.on year 12 25),
    -- the birthdays of King and Washington
    if 1998 ≤ year then Date.nthOn 3 .monday year 1 else none,
    if year ≤ 1970 then some (Date.on year 2 22) else Date.nthOn 3 .monday year 2,
    if year ∈ [1898, 1906, 1907] then none else goodFriday year,
    -- Memorial Day, Labor Day, Columbus Day
    if year ≤ 1970 then some (Date.on year 5 30) else Date.nthOn (-1) .monday year 5,
    Date.nthOn 1 .monday year 9,
    if 1909 ≤ year ∧ year ≤ 1953 then some (Date.on year 10 12) else none,
    -- Election Day, Thanksgiving, Armistice Day
    if year ≤ 1968 ∨ year ∈ [1972, 1976, 1980] then (Date.nthOn 1 .monday year 11).map Date.next
      else none,
    Date.nthOn (thanksgivingPlace year) .thursday year 11,
    if (1918 ≤ year ∧ year ≤ 1921) ∨ (1934 ≤ year ∧ year ≤ 1953) then some (Date.on year 11 11)
      else none ].filterMap id

/-- The days on which a regular holiday is kept: its own day, the Monday after a Sunday, and since
July 1959 the Friday before a Saturday, unless that Friday ends a quarter. -/
def IsKeptOn (holiday d : Date) : Prop :=
  d = holiday ∨
    (holiday.weekday = .sunday ∧ d = holiday.next) ∨
    (holiday.weekday = .saturday ∧ d = holiday.previous ∧ Date.on 1959 7 3 ≤ d ∧
      d ∉ [Date.on d.year 3 31, Date.on d.year 6 30, Date.on d.year 9 30, Date.on d.year 12 31])

theorem goodFriday_eq (year : Int) : goodFriday year = Rule.goodFriday.dayIn? year := by
  unfold goodFriday Rule.dayIn?
  cases Date.easter year 1582 with
  | ok sunday =>
    simp [Except.toOption, Option.filter_some]
  | error e => rfl

variable {d : Date} {year : Int}

theorem some_eq_ite {p : Prop} [Decidable p] {a b : Option Date} :
    (some d = if p then a else b) ↔ (p ∧ some d = a) ∨ (¬p ∧ some d = b) := by
  by_cases h : p
  next => simp [h]
  next => simp [h]

theorem thanksgiving_eras :
    some d = Date.nthOn (thanksgivingPlace year) .thursday year 11 ↔
      ((year ≤ 1938 ∨ year = 1942) ∧ some d = Date.nthOn (-1) .thursday year 11) ∨
      ((1939 ≤ year ∧ year ≤ 1941) ∧ some d = Date.nthOn (-2) .thursday year 11) ∨
      (1943 ≤ year ∧ some d = Date.nthOn 4 .thursday year 11) := by
  unfold thanksgivingPlace
  grind

-- The feasts of the calendar are the regular holidays: where a holiday has one rule after another,
-- there is a feast for each of its eras.
theorem mem_regularHolidays_iff :
    d ∈ regularHolidays year ↔ some d ∈ feasts.map (Feast.dayIn? year) := by
  have elections : (year ≤ 1968 ∨ year = 1972 ∨ year = 1976 ∨ year = 1980) ↔
      (year ≤ 1968 ∨ (year ≤ 1980 ∧ year % 4 = 0)) := by
    omega
  simp only [regularHolidays, List.mem_filterMap, id, exists_eq_right, feasts, List.map_cons,
    List.map_nil, Feast.dayIn?, List.mem_cons, List.not_mem_nil, or_false, Bool.or_eq_true,
    Bool.and_eq_true, decide_eq_true_eq, bne_iff_ne, beq_iff_eq, if_true, goodFriday_eq,
    some_eq_ite, thanksgiving_eras, reduceCtorEq, and_false, or_false, false_or, elections,
    Int.not_le, not_or, Rule.dayIn?, or_assoc, ← and_assoc, ne_eq]

theorem isFeast_iff (settled : Settled d) :
    isFeast d = true ↔ ∃ year, d ∈ regularHolidays year :=
  (any_fallsOn_iff .exchange settled).trans
    (exists_congr fun _ => mem_regularHolidays_iff.symm)

theorem isQuarterEnd_iff :
    isQuarterEnd d = true ↔
      d ∈ [Date.on d.year 3 31, Date.on d.year 6 30, Date.on d.year 9 30,
        Date.on d.year 12 31] := by
  have months := d.month_bounds
  have last : ∀ month, 1 ≤ month ∧ month ≤ 12 → month % 3 = 0 →
      (d = Date.on d.year month (Civil.monthLength d.year month) ↔
        d.month = month ∧ isQuarterEnd d = true) := by
    intro month inYear third
    simp only [isQuarterEnd, Bool.and_eq_true, beq_iff_eq, Date.isEndOfMonth, Date.endOfMonth,
      Date.monthLength]
    constructor
    next =>
      intro same
      have inMonth : d.month = month :=
        (congrArg Date.month same).trans (Date.month_on (Date.valid_last d.year inYear))
      exact ⟨inMonth, by rw [inMonth, third], by rw [inMonth]; exact same⟩
    next =>
      rintro ⟨rfl, -, same⟩
      exact same
  have march := last 3 (by decide) (by decide)
  have june := last 6 (by decide) (by decide)
  have september := last 9 (by decide) (by decide)
  have december := last 12 (by decide) (by decide)
  simp only [Civil.monthLength] at march june september december
  simp only [List.mem_cons, List.not_mem_nil, or_false, march, june, september, december,
    ← or_and_right]
  constructor
  next =>
    intro quarterEnd
    have third := quarterEnd
    simp only [isQuarterEnd, Bool.and_eq_true, beq_iff_eq] at third
    exact ⟨by omega, quarterEnd⟩
  next => exact And.right

-- A holiday that is moved falls on the end of a week, and the day that stands for it is next to it.
theorem isKeptOn_iff (room : d.HasRoom 1) {holiday : Date} :
    IsKeptOn holiday d ↔
      holiday = d ∨ (d.weekday = .monday ∧ holiday = d.previous) ∨
        ((d.weekday = .friday ∧ holiday = d.next) ∧ fridayRule ≤ d ∧ isQuarterEnd d = false) := by
  rw [IsKeptOn, ← isQuarterEnd_iff, Bool.not_eq_true, room.moved_from_sunday, ← and_assoc,
    room.moved_from_saturday, eq_comm, fridayRule]

theorem exists_isKeptOn_iff (inRange : d.InRange) :
    (∃ year, ∃ holiday ∈ regularHolidays year, IsKeptOn holiday d) ↔
      isFeast d = true ∨ isObserved d = true := by
  have room : d.HasRoom 1 := inRange.hasRoom (by decide)
  simp only [isObserved, Bool.or_eq_true, Bool.and_eq_true, beq_iff_eq, decide_eq_true_eq,
    Bool.not_eq_true']
  constructor
  next =>
    rintro ⟨year, holiday, regular, kept⟩
    rcases (isKeptOn_iff room).mp kept with rfl | ⟨monday, rfl⟩ | ⟨⟨friday, rfl⟩, ruled⟩
    next => exact .inl ((isFeast_iff (settled_of_inRange inRange)).mpr ⟨year, regular⟩)
    next =>
      have feast := (isFeast_iff (settled_previous inRange monday)).mpr ⟨year, regular⟩
      exact .inr (.inr ⟨monday, feast⟩)
    next =>
      have feast := (isFeast_iff (settled_next inRange friday)).mpr ⟨year, regular⟩
      exact .inr (.inl ⟨⟨⟨friday, ruled.1⟩, ruled.2⟩, feast⟩)
  next =>
    rintro (feast | ⟨⟨⟨friday, ruled⟩, notEnd⟩, feast⟩ | ⟨monday, feast⟩)
    next =>
      obtain ⟨year, regular⟩ := (isFeast_iff (settled_of_inRange inRange)).mp feast
      exact ⟨year, d, regular, (isKeptOn_iff room).mpr (.inl rfl)⟩
    next =>
      obtain ⟨year, regular⟩ := (isFeast_iff (settled_next inRange friday)).mp feast
      exact ⟨year, d.next, regular,
        (isKeptOn_iff room).mpr (.inr (.inr ⟨⟨friday, rfl⟩, ruled, notEnd⟩))⟩
    next =>
      obtain ⟨year, regular⟩ := (isFeast_iff (settled_previous inRange monday)).mp feast
      exact ⟨year, d.previous, regular, (isKeptOn_iff room).mpr (.inr (.inl ⟨monday, rfl⟩))⟩

/-- The exchange is closed at the end of a week, for a president's funeral, by a special closure,
and on the days on which the regular holidays of the years are kept. -/
theorem isHoliday_iff_regularHolidays (inRange : d.InRange) :
    Calendar.exchange.isHoliday d = true ↔
      d.weekday = .saturday ∨ d.weekday = .sunday ∨ d ∈ Federal.funerals ∨
        isSpecialClosure d = true ∨
        ∃ year, ∃ holiday ∈ regularHolidays year, IsKeptOn holiday d := by
  simp only [Calendar.isHoliday, isHoliday, isClosed, isSpecialClosure, Bool.or_eq_true,
    List.contains_iff_mem, Date.isWeekend_iff, exists_isKeptOn_iff inRange]
  grind

theorem isHoliday_iff_regularHolidays_quarter_end :
    (Date.on 2010 12 31).InRange ∧
      ¬∃ year, ∃ holiday ∈ regularHolidays year, IsKeptOn holiday (Date.on 2010 12 31) := by
  have inRange : (Date.on 2010 12 31).InRange := by decide
  have workday : Calendar.exchange.isHoliday (Date.on 2010 12 31) = false := by decide
  refine ⟨inRange, fun kept => ?_⟩
  have holiday := (isHoliday_iff_regularHolidays inRange).mpr (.inr (.inr (.inr (.inr kept))))
  rw [workday] at holiday
  cases holiday

end Almanac.Holiday.Exchange
