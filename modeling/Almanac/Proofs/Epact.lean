import Almanac.Proofs.Civil.Word
import Almanac.Proofs.Easter
import Almanac.Proofs.Week

set_option autoImplicit false

/-!
# Easter by the epact

The Gregorian Easter is reckoned once more by the rule of the church. The golden number and two
corrections of the centuries give the epact, which is the age of the moon when the year begins; the
epact gives the full moon of spring, and Easter is the Sunday after it. Days are counted from the
start of March.
-/

namespace Almanac.Easter

def golden (year : Int) : Int :=
  year % 19 + 1

def centuryNumber (year : Int) : Int :=
  year / 100 + 1

/-- The number of the century years since 1600 that had no leap day. -/
def solarCorrection (year : Int) : Int :=
  3 * centuryNumber year / 4 - 12

/-- The number of days by which the moon is put forward, eight in 2500 years. -/
def lunarCorrection (year : Int) : Int :=
  (8 * centuryNumber year + 5) / 25 - 5

/-- The day of March with the negative of this number, taken by sevens, is a Sunday. -/
def sundayNumber (year : Int) : Int :=
  5 * year / 4 - solarCorrection year - 10

def plainEpact (year : Int) : Int :=
  (11 * golden year + 20 + lunarCorrection year - solarCorrection year) % 30

def epact (year : Int) : Int :=
  let e := plainEpact year
  if e = 24 ∨ (e = 25 ∧ 11 < golden year) then e + 1 else e

def fullMoonOfSpring (year : Int) : Int :=
  let n := 44 - epact year
  if n < 21 then n + 30 else n

def sundayOfSpring (year : Int) : Int :=
  let n := fullMoonOfSpring year
  n + 7 - (sundayNumber year + n) % 7

def ofMarchDay (n : Int) : Nat × Nat :=
  if n ≤ 31 then (3, n.toNat) else (4, (n - 31).toNat)

def byEpact (year : Int) : Nat × Nat :=
  ofMarchDay (sundayOfSpring year)

/-- The number of days from March 21 to the full moon, before the two latest are brought forward. -/
def moonDistance (year : Int) : Int :=
  let century := year / 100
  let lunar := (century - (century + 8) / 25 + 1) / 3
  (19 * (year % 19) + century - century / 4 - lunar + 15) % 30

def sundayDistance (year : Int) : Int :=
  let century := year / 100
  let inCentury := year % 100
  (32 + 2 * (century % 4) + 2 * (inCentury / 4) - moonDistance year - inCentury % 4) % 7

def weekOff (year : Int) : Int :=
  (year % 19 + 11 * moonDistance year + 22 * sundayDistance year) / 451

variable (year : Int)

theorem moonDistance_bounds : 0 ≤ moonDistance year ∧ moonDistance year < 30 := by
  unfold moonDistance
  dsimp only
  omega

theorem sundayDistance_bounds : 0 ≤ sundayDistance year ∧ sundayDistance year < 7 := by
  unfold sundayDistance
  dsimp only
  omega

-- A week is taken off when the latest full moon falls on a Sunday, and in the late years of the
-- cycle also for the latest but one.
theorem weekOff_eq : weekOff year =
    if sundayDistance year = 6 ∧
      (moonDistance year = 29 ∨ (moonDistance year = 28 ∧ 11 < golden year)) then 1 else 0 := by
  have moon := moonDistance_bounds year
  have sunday := sundayDistance_bounds year
  unfold weekOff golden
  split
  next => omega
  next => omega

theorem gregorian_eq_ofMarchDay : gregorian year =
    ofMarchDay (22 + moonDistance year + sundayDistance year - 7 * weekOff year) := by
  have moon := moonDistance_bounds year
  have sunday := sundayDistance_bounds year
  have off := weekOff_eq year
  have parts : gregorian year =
      (((moonDistance year + sundayDistance year - 7 * weekOff year + 114) / 31).toNat,
        ((moonDistance year + sundayDistance year - 7 * weekOff year + 114) % 31 + 1).toNat) := rfl
  rw [parts, ofMarchDay]
  split at off <;> split <;> rw [Prod.mk.injEq] <;> omega

theorem moonDistance_eq_epact : moonDistance year = (23 - plainEpact year) % 30 := by
  -- The two ways to reckon how far the moon has run behind agree in all centuries.
  have lunar : (year / 100 - (year / 100 + 8) / 25 + 1) / 3 = lunarCorrection year + 5 := by
    unfold lunarCorrection centuryNumber
    omega
  have solar : year / 100 - year / 100 / 4 = solarCorrection year + 12 := by
    unfold solarCorrection centuryNumber
    omega
  simp only [moonDistance, lunar, plainEpact, golden]
  omega

theorem solarCorrection_eq : solarCorrection year = year / 100 - year / 100 / 4 - 12 := by
  unfold solarCorrection centuryNumber
  omega

theorem sundayDistance_eq :
    sundayDistance year = (-sundayNumber year - moonDistance year - 15) % 7 := by
  have quarter : 5 * year / 4 = 125 * (year / 100) + 5 * (year % 100 / 4) + year % 100 % 4 := by
    omega
  have days : sundayNumber year =
      497 * (year / 100 / 4) + 124 * (year / 100 % 4) + 5 * (year % 100 / 4) +
        year % 100 % 4 + 2 := by
    rw [sundayNumber, solarCorrection_eq, quarter]
    omega
  simp only [sundayDistance, days]
  omega

theorem fullMoonOfSpring_eq : fullMoonOfSpring year = 21 + moonDistance year -
    if moonDistance year = 29 ∨ (moonDistance year = 28 ∧ 11 < golden year) then 1 else 0 := by
  have moon := moonDistance_eq_epact year
  have plain : 0 ≤ plainEpact year ∧ plainEpact year < 30 := by
    unfold plainEpact
    omega
  unfold fullMoonOfSpring epact
  dsimp only
  split <;> split <;> split <;> omega

theorem sundayOfSpring_eq :
    sundayOfSpring year = 22 + moonDistance year + sundayDistance year - 7 * weekOff year := by
  have moon := fullMoonOfSpring_eq year
  have sunday := sundayDistance_eq year
  have off := weekOff_eq year
  unfold sundayOfSpring
  dsimp only
  split at moon <;> split at off <;> omega

theorem gregorian_eq_byEpact : gregorian year = byEpact year := by
  rw [gregorian_eq_ofMarchDay, byEpact, sundayOfSpring_eq]

theorem sundayOfSpring_bounds : 22 ≤ sundayOfSpring year ∧ sundayOfSpring year ≤ 56 := by
  have moon := moonDistance_bounds year
  have sunday := sundayDistance_bounds year
  have off := weekOff_eq year
  rw [sundayOfSpring_eq]
  split at off <;> omega

end Almanac.Easter

namespace Almanac.Date

variable {year : Int}

theorem march_serial (year : Int) :
    (on year 3 1).serial = Civil.daysBeforeYear (year + 1) - 719468 := by
  have number := Civil.dayNumber_eq ⟨year, 3, 1⟩
  have spring := Civil.monthsLength_two year
  have day : (⟨year, 3, 1⟩ : Civil).dayOfYear = Civil.monthsLength year 2 + 1 := rfl
  have next := Civil.daysBeforeYear_succ year
  simp only [on, ofCivil] at number ⊢
  omega

theorem ofMarchDay_serial {n : Int} (h : 1 ≤ n) :
    (on year (Easter.ofMarchDay n).1 (Easter.ofMarchDay n).2).serial =
      Civil.daysBeforeYear (year + 1) - 719469 + n := by
  have march := march_serial year
  have april : (on year 4 1).serial = (on year 3 1).serial + 31 := by
    have months : Civil.monthsLength year 3 = Civil.monthsLength year 2 + 31 := rfl
    simp only [on, ofCivil, Civil.dayNumber_eq, Civil.dayOfYear, Nat.reduceSub]
    omega
  unfold Easter.ofMarchDay
  split
  next => rw [on_serial]; simp only; omega
  next => rw [on_serial]; simp only; omega

theorem weekday_byEpact (year : Int) :
    (on year (Easter.byEpact year).1 (Easter.byEpact year).2).weekday = .sunday := by
  have bounds := Easter.sundayOfSpring_bounds year
  have days : Civil.daysBeforeYear (year + 1) = 364 * year + Easter.sundayNumber year - 2 := by
    have quarter : 5 * year / 4 = year + year / 4 := by omega
    have centuries : year / 400 = year / 100 / 4 := by omega
    rw [Easter.sundayNumber, Easter.solarCorrection_eq, quarter, Civil.daysBeforeYear,
      Int.add_sub_cancel, centuries]
    omega
  have sunday : (Easter.sundayNumber year + Easter.sundayOfSpring year) % 7 = 0 := by
    simp only [Easter.sundayOfSpring]
    omega
  rw [weekday_eq_iff, Easter.byEpact, ofMarchDay_serial (by omega), days, Weekday.sundayIndex]
  omega

end Almanac.Date

namespace Almanac.Word

open Easter (moonDistance sundayDistance weekOff)

variable {year : Int}

theorem moonDistance?_eq (h : 0 ≤ year ∧ year < 2147483648) :
    moonDistance? year = some (moonDistance year) := by
  rw [moonDistance?]
  simp (disch := omega) only [some_bind_eq, lunar?, rem?_eq, div?_eq, mul?_eq, add?_eq, sub?_eq]
  rfl

theorem sundayDistance?_eq (h : 0 ≤ year ∧ year < 2147483648) :
    sundayDistance? year (moonDistance year) = some (sundayDistance year) := by
  have moon := Easter.moonDistance_bounds year
  rw [sundayDistance?]
  simp (disch := omega) only [some_bind_eq, rem?_eq, div?_eq, mul?_eq, add?_eq, sub?_eq]
  rfl

theorem weekOff?_eq (h : 0 ≤ year ∧ year < 2147483648) :
    weekOff? year (moonDistance year) (sundayDistance year) = some (weekOff year) := by
  have moon := Easter.moonDistance_bounds year
  have sunday := Easter.sundayDistance_bounds year
  rw [weekOff?]
  simp (disch := omega) only [some_bind_eq, rem?_eq, div?_eq, mul?_eq, add?_eq]
  rfl

theorem gregorianEaster?_eq (h : 0 ≤ year ∧ year < 2147483648) :
    gregorianEaster? year = some (Easter.gregorian year) := by
  have moon := Easter.moonDistance_bounds year
  have sunday := Easter.sundayDistance_bounds year
  have off : 0 ≤ weekOff year ∧ weekOff year ≤ 1 := by
    rw [Easter.weekOff_eq]
    split <;> decide
  rw [gregorianEaster?, moonDistance?_eq h, some_bind_eq, sundayDistance?_eq h, some_bind_eq, weekOff?_eq h]
  simp (disch := omega) only [some_bind_eq, rem?_eq, div?_eq, mul?_eq, add?_eq, sub?_eq, byte?_eq]
  rfl

end Almanac.Word
