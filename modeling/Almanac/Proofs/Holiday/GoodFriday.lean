import Almanac.Proofs.Epact
import Almanac.Proofs.Holiday.Yearly

set_option autoImplicit false

/-!
# Good Friday

Of the feasts of spring the exchange keeps Good Friday alone, and the federal calendar keeps none.
So a Friday in March or April is closed on the one calendar as Good Friday only, and on the other
never.
-/

namespace Almanac

namespace Holiday

variable {d : Date}

theorem Federal.isFeast_spring (months : d.month = 3 ∨ d.month = 4) :
    Federal.isFeast d = false := by
  rcases months with march | april
  next => simp [Federal.isFeast, Federal.feasts, Feast.fallsOn, Rule.fallsOn, march]
  next => simp [Federal.isFeast, Federal.feasts, Feast.fallsOn, Rule.fallsOn, april]

theorem Exchange.isFeast_spring (months : d.month = 3 ∨ d.month = 4) :
    Exchange.isFeast d = true ↔
      Rule.goodFriday.fallsOn d = true ∧ ¬(d.year = 1898 ∨ d.year = 1906 ∨ d.year = 1907) := by
  rcases months with march | april
  next =>
    simp [Exchange.isFeast, Exchange.feasts, Feast.fallsOn, Rule.fallsOn, march, and_assoc]
  next =>
    simp [Exchange.isFeast, Exchange.feasts, Feast.fallsOn, Rule.fallsOn, april, and_assoc]

structure IsSpringFriday (d : Date) : Prop where
  room : d.HasRoom 1
  friday : d.weekday = .friday
  months : d.month = 3 ∨ d.month = 4
  nextMonths : d.next.month = 3 ∨ d.next.month = 4

-- Of the listed dates a Monday, a Tuesday and a Wednesday are in these months.
theorem not_listed_of_spring (calendar : Calendar) :
    ∀ d ∈ calendar.listed, d.weekday = .friday → ¬(d.month = 3 ∨ d.month = 4) := by
  cases calendar with
  | federal => decide
  | exchange => decide

namespace IsSpringFriday

variable (spring : IsSpringFriday d)

include spring

theorem not_listed (calendar : Calendar) : d ∉ calendar.listed :=
  fun listed => not_listed_of_spring calendar d listed spring.friday spring.months

theorem isWeekend_eq_false : d.isWeekend = false := by
  rw [Date.isWeekend, spring.friday]
  rfl

theorem federal_isHoliday : Calendar.federal.isHoliday d = false := by
  have notListed := spring.not_listed .federal
  simp only [Calendar.listed, List.mem_append, not_or] at notListed
  have other : d.month ≠ 12 ∧ d.month ≠ 1 := by
    have months := spring.months
    omega
  simp [Calendar.isHoliday, Federal.isHoliday, spring.isWeekend_eq_false, notListed,
    Federal.isFeast_spring spring.months, Federal.isDayAfterChristmas, Federal.isObserved,
    Federal.isFeast_spring spring.nextMonths, spring.friday, Federal.isInauguration, other]

theorem exchange_isHoliday_iff :
    Calendar.exchange.isHoliday d = true ↔
      Rule.goodFriday.fallsOn d = true ∧ ¬(d.year = 1898 ∨ d.year = 1906 ∨ d.year = 1907) := by
  have notListed := spring.not_listed .exchange
  simp only [Calendar.listed, List.mem_append, not_or] at notListed
  -- The Saturday is no Good Friday, so that the Friday does not stand for it.
  have saturday : d.next.weekday = .saturday :=
    (spring.room.weekday_next_eq_iff .friday).mpr spring.friday
  have notMoved : Exchange.isFeast d.next = false := by
    rw [← Bool.not_eq_true, Exchange.isFeast_spring spring.nextMonths]
    simp [Rule.fallsOn, saturday]
  rw [← Exchange.isFeast_spring spring.months]
  simp [Calendar.isHoliday, Exchange.isHoliday, Exchange.isClosed, spring.isWeekend_eq_false,
    notListed, Exchange.isObserved, notMoved, Exchange.isPaperworkDay, spring.friday]

end IsSpringFriday

theorem isSpringFriday_of_easter {sunday : Date} (inRange : sunday.InRange)
    (season : Easter.InSeason (sunday.month, sunday.day)) (isSunday : sunday.weekday = .sunday)
    (before : d.serial = sunday.serial - 2) : IsSpringFriday d := by
  have room : d.HasRoom 1 := (inRange.hasRoom (show 3 ≤ 361000000 by decide)).near (by omega)
  have next : d.next.serial = d.serial + 1 := room.plus_serial (by decide)
  have friday : d.weekday = .friday := by
    rw [Date.weekday_eq_iff] at isSunday ⊢
    simp only [Weekday.sundayIndex] at isSunday ⊢
    omega
  exact ⟨room, friday, (season.month_before d (by omega)).2,
    (season.month_before d.next (by omega)).2⟩

end Holiday

theorem Date.exists_easter_of_reformed {year : Int} (years : 1583 ≤ year ∧ year ≤ 9999) :
    ∃ sunday, easter year 1582 = .ok sunday ∧ sunday.weekday = .sunday := by
  refine ⟨_, easter_of_reformed (by omega) (by omega), ?_⟩
  rw [Easter.gregorian_eq_byEpact]
  exact weekday_byEpact year

namespace Calendar

open Holiday

/-- Two days before the Gregorian Easter is a Friday from March 20 to April 23. The federal
government works on it, and the exchange is closed on it in all years but three. -/
theorem goodFriday_closes_exchange {year : Int} (years : 1583 ≤ year ∧ year ≤ 9999) :
    ∃ sunday, Date.easter year 1582 = .ok sunday ∧
      (sunday.minus 2).weekday = .friday ∧
      (Date.on year 3 20 ≤ sunday.minus 2 ∧ sunday.minus 2 ≤ Date.on year 4 23) ∧
      federal.isWorkday (sunday.minus 2) = true ∧
      (exchange.isHoliday (sunday.minus 2) = true ↔
        ¬(year = 1898 ∨ year = 1906 ∨ year = 1907)) := by
  obtain ⟨sunday, isEaster, isSunday⟩ := Date.exists_easter_of_reformed years
  obtain ⟨inRange, sameYear, season⟩ := Date.easter_inSeason isEaster
  have friday : (sunday.minus 2).serial = sunday.serial - 2 :=
    (inRange.hasRoom (show 2 ≤ 361000000 by decide)).minus_serial (by decide)
  have spring := isSpringFriday_of_easter inRange season isSunday friday
  obtain ⟨fridayYear, -⟩ := season.month_before (sunday.minus 2) (by omega)
  have between := season.friday_between friday
  have goodFriday : Rule.goodFriday.dayIn? year = some (sunday.minus 2) :=
    (goodFriday_dayIn?_iff spring.room).mpr ⟨spring.friday, sunday, isEaster, friday.symm⟩
  obtain ⟨falls, -⟩ := (goodFriday_fallsOn_iff spring.room).mpr goodFriday
  rw [sameYear] at between fridayYear
  refine ⟨sunday, isEaster, spring.friday, between, ?_, ?_⟩
  next => rw [isWorkday, spring.federal_isHoliday, Bool.not_false]
  next => rw [spring.exchange_isHoliday_iff, fridayYear, and_iff_right falls]

theorem goodFriday_closes_exchange_open_year :
    (1583 ≤ (1905 : Int) ∧ (1905 : Int) ≤ 9999) ∧
      Date.easter 1905 1582 = .ok (Date.on 1905 4 23) ∧
      federal.isWorkday (Date.on 1905 4 21) = true ∧
      exchange.isHoliday (Date.on 1905 4 21) = true ∧
      Date.easter 1906 1582 = .ok (Date.on 1906 4 15) ∧
      exchange.isHoliday (Date.on 1906 4 13) = false := by
  have closedYear : 1583 ≤ (1905 : Int) ∧ (1905 : Int) ≤ 9999 := by decide
  have openYear : 1583 ≤ (1906 : Int) ∧ (1906 : Int) ≤ 9999 := by decide
  have closedEaster : Date.easter 1905 1582 = .ok (Date.on 1905 4 23) := rfl
  have openEaster : Date.easter 1906 1582 = .ok (Date.on 1906 4 15) := rfl
  obtain ⟨sunday, isEaster, -, -, works, closed⟩ := goodFriday_closes_exchange closedYear
  obtain ⟨later, isLater, -, -, -, notClosed⟩ := goodFriday_closes_exchange openYear
  rw [closedEaster] at isEaster
  rw [openEaster] at isLater
  cases isEaster
  cases isLater
  rw [show (Date.on 1905 4 23).minus 2 = Date.on 1905 4 21 by decide] at works closed
  rw [show (Date.on 1906 4 15).minus 2 = Date.on 1906 4 13 by decide] at notClosed
  exact ⟨closedYear, closedEaster, works, closed.mpr (by decide), openEaster,
    Bool.eq_false_iff.mpr (mt notClosed.mp (not_not_intro (by decide)))⟩

end Calendar

end Almanac
