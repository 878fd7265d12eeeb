import Almanac.Proofs.Chunk.Numbering
import Almanac.Proofs.Chunk.Representable
import Almanac.Proofs.Date.Word

set_option autoImplicit false

/-!
# Periods in machine words

Weeks, the bounds of periods and the moves by periods are reckoned here once more in words and
bytes. No step fails on a date that adding can reach, and each leads where the calendar does.
-/

namespace Almanac.Word

def startOfWeek? (d : Date) (settings : Settings) : Option Date := do
  return minus d (← daysUntil? settings.weekStart (← weekday? d))

def endOfWeek? (d : Date) (settings : Settings) : Option Date := do
  return plus (← startOfWeek? d settings) 6

def firstWeekStart? (year : Int) (settings : Settings) : Option Date := do
  let newYear ← on? year 1 1
  return plus newYear (← daysUntil? (← weekday? newYear) settings.weekStart)

def weekOrigin? (d : Date) (settings : Settings) : Option Date := do
  let c ← civil? d
  let first ← firstWeekStart? c.year settings
  if d < first then firstWeekStart? (← sub? c.year 1) settings else return first

def weekNumber? (d : Date) (settings : Settings) : Option Nat := do
  let first ← weekOrigin? d settings
  byte? (← add? (← div? (← sub? d.serial first.serial) 7) 1)

def spanOffset? (size : Int) (month : Nat) : Option Int := do
  mul? (← div? (← sub? month 1) size) size

def spanStart? (size : Int) (d : Date) : Option Date := do
  let c ← civil? d
  on? c.year (← byte? (← add? (← spanOffset? size c.month) 1)) 1

def spanEnd? (size : Int) (d : Date) : Option Date := do
  let c ← civil? d
  endOfMonth? (← on? c.year (← byte? (← add? (← spanOffset? size c.month) size)) 1)

def beginningOf? (chunk : Chunk) (d : Date) (settings : Settings) : Option Date :=
  match chunk with
  | .year => spanStart? 12 d
  | .half => spanStart? 6 d
  | .quarter => spanStart? 3 d
  | .bimonth => spanStart? 2 d
  | .month => spanStart? 1 d
  | .semimonth => do
      let c ← civil? d
      on? c.year c.month (if c.day ≤ 15 then 1 else 16)
  | .biweek => do
      let start ← startOfWeek? d settings
      if (← weekNumber? d settings) % 2 = 1 then return start else return minus start 7
  | .week => startOfWeek? d settings
  | .day => some d

def endOf? (chunk : Chunk) (d : Date) (settings : Settings) : Option Date :=
  match chunk with
  | .year => spanEnd? 12 d
  | .half => spanEnd? 6 d
  | .quarter => spanEnd? 3 d
  | .bimonth => spanEnd? 2 d
  | .month => spanEnd? 1 d
  | .semimonth => do
      let c ← civil? d
      if c.day ≤ 15 then on? c.year c.month 15 else endOfMonth? d
  | .biweek => do
      let later := plus d 7
      if (← weekNumber? d settings) % 2 = 0 then endOfWeek? d settings
      else if (← weekNumber? later settings) = 1 then endOfWeek? d settings
      else endOfWeek? later settings
  | .week => endOfWeek? d settings
  | .day => some d

def halfMonthOn? (d : Date) : Option Date := do
  let c ← civil? d
  if c.day ≤ 15 then
    on? c.year c.month (min (← addByte? c.day 15) (← monthLength? c.year c.month))
  else
    let following ← civil? (← shiftMonths? (← on? c.year c.month 1) 1)
    on? following.year following.month (min (← subByte? c.day 15) 15)

def halfMonthBack? (d : Date) : Option Date := do
  let c ← civil? d
  if c.day ≤ 15 then
    let preceding ← civil? (← shiftMonths? (← on? c.year c.month 1) (-1))
    on? preceding.year preceding.month
      (min (← addByte? c.day 15) (← monthLength? preceding.year preceding.month))
  else on? c.year c.month (min (← subByte? c.day 15) 15)

def advanceSemimonths? (d : Date) (n : Int) : Option Date := do
  let moved ← shiftMonths? d (← div? n 2)
  let rest ← rem? n 2
  if rest = 1 then halfMonthOn? moved
  else if rest = -1 then halfMonthBack? moved
  else return moved

def advance? (chunk : Chunk) (d : Date) (n : Int) : Option Date :=
  if n = 0 then some d
  else match chunk with
    | .year => shiftMonths? d (clip (12 * n))
    | .half => shiftMonths? d (clip (6 * n))
    | .quarter => shiftMonths? d (clip (3 * n))
    | .bimonth => shiftMonths? d (clip (2 * n))
    | .month => shiftMonths? d (clip n)
    | .semimonth => advanceSemimonths? d n
    | .biweek => some (plus d (clip (14 * n)))
    | .week => some (plus d (clip (7 * n)))
    | .day => some (plus d n)

def skip? (skip : Skip) (d : Date) : Option Date := do
  let distance ← match skip.direction with
    | .before => daysUntil? skip.weekday (← weekday? d)
    | .after => daysUntil? (← weekday? d) skip.weekday
  let days : Int := if (distance : Int) = 0 ∧ ¬skip.inclusive then 7 else distance
  return match skip.direction with
    | .before => minus d days
    | .after => plus d days

variable {d : Date} {n : Int}

theorem startOfWeek?_eq (near : -1000000000 ≤ d.serial ∧ d.serial ≤ 1000000000)
    (settings : Settings) : startOfWeek? d settings = some (d.startOfWeek settings) := by
  simp only [startOfWeek?, weekday?_eq near, daysUntil?_eq, some_bind_eq, minus_eq]
  rfl

theorem endOfWeek?_eq (near : -1000000000 ≤ d.serial ∧ d.serial ≤ 1000000000)
    (settings : Settings) : endOfWeek? d settings = some (d.endOfWeek settings) := by
  simp only [endOfWeek?, startOfWeek?_eq near, some_bind_eq, plus_eq]
  rfl

theorem firstWeekStart?_eq {year : Int} (near : -1000001 ≤ year ∧ year ≤ 1000000)
    (settings : Settings) :
    firstWeekStart? year settings = some (Date.firstWeekStart year settings) := by
  have serial := Date.newYear_serial year
  unfold Civil.daysBeforeYear at serial
  have newYear := on?_eq (Date.valid_first year (by decide : 1 ≤ 1 ∧ 1 ≤ 12)) (by omega)
  have weekday := @weekday?_eq (Date.on year 1 1) (by omega)
  simp only [firstWeekStart?, newYear, weekday, daysUntil?_eq, some_bind_eq, plus_eq]
  rfl

theorem spanOffset?_eq {size month : Nat} (positive : 0 < size) (h : 1 ≤ month ∧ month ≤ 12) :
    spanOffset? size month = some ((Chunk.firstMonth size month : Int) - 1) := by
  have before : (month : Int) - 1 = (month - 1 : Nat) := by omega
  have whole := Nat.div_mul_le_self (month - 1) size
  have product : ((month - 1 : Nat) : Int) / size * size = ((month - 1) / size * size : Nat) := by
    push_cast
    rfl
  simp (disch := omega) only [spanOffset?, sub?_eq, before, div?_eq, some_bind_eq, Chunk.firstMonth]
  rw [mul?, product, fit?_eq (by omega) (by omega)]
  congr 1
  omega

section

variable (inYears : d.Representable)

include inYears

theorem near_of_representable : -1000000000 ≤ d.serial ∧ d.serial ≤ 1000000000 := by
  have bounds := inYears.serial_bounds
  omega

theorem weekOrigin?_eq (settings : Settings) :
    weekOrigin? d settings = some (d.weekOrigin settings) := by
  have years := inYears.year_bounds
  simp (disch := omega) only [weekOrigin?, civil?_eq inYears, some_bind_eq, firstWeekStart?_eq,
    sub?_eq, Date.weekOrigin]
  split <;> rfl

theorem weekNumber?_eq (settings : Settings) :
    weekNumber? d settings = some (d.weekNumber settings) := by
  have near := Date.weekOrigin_near inYears settings
  simp (disch := omega) only [weekNumber?, weekOrigin?_eq inYears, some_bind_eq, sub?_eq, div?_eq,
    add?_eq, byte?_eq]
  rfl

section

variable {size : Nat} (positive : 0 < size) (divides : size ∣ 12)

include positive divides

theorem spanStart?_eq :
    spanStart? size d = some (Date.on d.year (Chunk.firstMonth size d.month) 1) := by
  have years := inYears.year_bounds
  have months := Chunk.firstMonth_bounds positive divides d.month_bounds
  have month : ((Chunk.firstMonth size d.month : Int) - 1 + 1).toNat =
      Chunk.firstMonth size d.month := by
    omega
  simp (disch := omega) only [spanStart?, civil?_eq inYears, some_bind_eq,
    spanOffset?_eq positive d.month_bounds, add?_eq, byte?_eq, month]
  exact on?_eq (Date.valid_first d.year (by omega)) (by omega)

theorem spanEnd?_eq :
    spanEnd? size d = some (Date.on d.year (Chunk.lastMonth size d.month) 1).endOfMonth := by
  have years := inYears.year_bounds
  have months := Chunk.firstMonth_bounds positive divides d.month_bounds
  have last : Chunk.lastMonth size d.month = Chunk.firstMonth size d.month - 1 + size := rfl
  have short : size ≤ 12 := Nat.le_of_dvd (by decide) divides
  have month : ((Chunk.firstMonth size d.month : Int) - 1 + size).toNat =
      Chunk.lastMonth size d.month := by
    omega
  have valid := Date.valid_first d.year (show 1 ≤ Chunk.lastMonth size d.month ∧ _ by omega)
  simp (disch := omega) only [spanEnd?, civil?_eq inYears, some_bind_eq,
    spanOffset?_eq positive d.month_bounds, add?_eq, byte?_eq, month, on?_eq valid]
  exact endOfMonth?_eq (Date.representable_on valid years)

end

theorem beginningOf?_eq (chunk : Chunk) (settings : Settings) :
    beginningOf? chunk d settings = some (chunk.beginningOf d settings) := by
  have near := near_of_representable inYears
  cases chunk with
  | year | half | quarter | bimonth | month => exact spanStart?_eq inYears (by decide) (by decide)
  | semimonth =>
    have length := d.monthLength_bounds
    simp only [beginningOf?, civil?_eq inYears, some_bind_eq]
    exact on?_inMonth inYears (by split <;> omega)
  | biweek =>
    simp only [beginningOf?, Chunk.beginningOf, startOfWeek?_eq near, weekNumber?_eq inYears,
      some_bind_eq, minus_eq]
    split <;> rfl
  | week => exact startOfWeek?_eq near settings
  | day => rfl

theorem endOf?_eq (chunk : Chunk) (settings : Settings) :
    endOf? chunk d settings = some (chunk.endOf d settings) := by
  have near := near_of_representable inYears
  cases chunk with
  | year | half | quarter | bimonth | month => exact spanEnd?_eq inYears (by decide) (by decide)
  | semimonth =>
    have length := d.monthLength_bounds
    have middle : on? d.year d.month 15 = _ := on?_inMonth inYears (by omega)
    simp only [endOf?, Chunk.endOf, civil?_eq inYears, some_bind_eq, middle,
      endOfMonth?_eq inYears]
    split <;> rfl
  | biweek =>
    have later := d.representable_plus 7
    simp only [endOf?, Chunk.endOf, plus_eq, weekNumber?_eq inYears, weekNumber?_eq later,
      endOfWeek?_eq near, endOfWeek?_eq (near_of_representable later), some_bind_eq]
    split
    next even => rw [if_pos (.inl even)]
    next odd =>
      split
      next first => rw [if_pos (.inr first)]
      next other => rw [if_neg (by omega)]
  | week => exact endOfWeek?_eq near settings
  | day => rfl

theorem halfMonthOn?_eq : halfMonthOn? d = some (Chunk.halfMonthOn d) := by
  have inMonth := d.day_bounds
  have length := d.monthLength_bounds
  have following := d.startOfMonth.representable_shiftMonths 1
  simp only [halfMonthOn?, Chunk.halfMonthOn, civil?_eq inYears, some_bind_eq]
  split
  next early =>
    simp (disch := omega) only [addByte?_eq, monthLength?_date, some_bind_eq]
    exact on?_inMonth inYears (by omega)
  next late =>
    have nextLength := (d.startOfMonth.shiftMonths 1).monthLength_bounds
    simp (disch := omega) only [subByte?_eq, on?_startOfMonth inYears, some_bind_eq,
      shiftMonths?_eq inYears.startOfMonth, civil?_eq following]
    exact on?_inMonth following (by omega)

theorem halfMonthBack?_eq : halfMonthBack? d = some (Chunk.halfMonthBack d) := by
  have inMonth := d.day_bounds
  have length := d.monthLength_bounds
  have preceding := d.startOfMonth.representable_shiftMonths (-1)
  simp only [halfMonthBack?, Chunk.halfMonthBack, civil?_eq inYears, some_bind_eq]
  split
  next early =>
    have lastLength := (d.startOfMonth.shiftMonths (-1)).monthLength_bounds
    simp (disch := omega) only [addByte?_eq, on?_startOfMonth inYears, some_bind_eq,
      monthLength?_date, shiftMonths?_eq inYears.startOfMonth, civil?_eq preceding]
    exact on?_inMonth preceding (by omega)
  next late =>
    simp (disch := omega) only [subByte?_eq, some_bind_eq]
    exact on?_inMonth inYears (by omega)

theorem advanceSemimonths?_eq (word : Date.IsWord n) :
    advanceSemimonths? d n = some (Chunk.advanceSemimonths d n) := by
  obtain ⟨low, high⟩ := word
  have parts := Chunk.tdiv_two n
  have half : div? n 2 = some (n.tdiv 2) := fit?_eq (by omega) (by omega)
  have rest : rem? n 2 = some (n.tmod 2) := fit?_eq (by omega) (by omega)
  have moved := d.representable_shiftMonths (n.tdiv 2)
  simp only [advanceSemimonths?, Chunk.advanceSemimonths, half, rest, shiftMonths?_eq inYears,
    halfMonthOn?_eq moved, halfMonthBack?_eq moved, some_bind_eq]
  split
  next => rfl
  next => split <;> rfl

theorem advance?_eq (chunk : Chunk) (word : Date.IsWord n) :
    advance? chunk d n = some (chunk.advance d n) := by
  unfold advance? Chunk.advance
  split
  next => rfl
  next =>
    cases chunk with
    | year | half | quarter | bimonth | month =>
      simp only [shiftMonths?_eq inYears, shiftMonths_clip inYears]
    | semimonth => exact advanceSemimonths?_eq inYears word
    | biweek | week => exact congrArg some (plus_clip inYears _)
    | day => exact congrArg some (plus_eq d n)

theorem skip?_eq (skip : Skip) : skip? skip d = some (skip.apply d) := by
  have near := near_of_representable inYears
  obtain ⟨direction, inclusive, weekday⟩ := skip
  cases direction with
  | before =>
    simp only [skip?, weekday?_eq near, daysUntil?_eq, some_bind_eq, minus_eq, Skip.apply]
    rfl
  | after =>
    simp only [skip?, weekday?_eq near, daysUntil?_eq, some_bind_eq, plus_eq, Skip.apply]
    rfl

end

end Almanac.Word
