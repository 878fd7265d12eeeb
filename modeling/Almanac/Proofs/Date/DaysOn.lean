import Almanac.Proofs.Date.NthWeekday
import Almanac.Proofs.Workday.Tally

set_option autoImplicit false

/-!
# The days of a month on a weekday

The days of a month that fall on a weekday are listed in order, and the nth of them is found by
counting along the list or back from its end.
-/

namespace Almanac.Date

def daysOn (weekday : Weekday) (year : Int) (month : Nat) : List Date :=
  (range (on year month 1) (on year month (Civil.monthLength year month))).filter fun d =>
    d.weekday == weekday

/-- The nth day of a month on a weekday, counted back from the last when `nth` is negative. -/
def nthOn (nth : Int) (weekday : Weekday) (year : Int) (month : Nat) : Option Date :=
  if 0 < nth then (daysOn weekday year month)[nth.natAbs - 1]?
  else (daysOn weekday year month).reverse[nth.natAbs - 1]?

theorem filter_weekday (first : Date) (weekday : Weekday) (n : Nat) :
    ((List.range n).map fun (i : Nat) => (⟨first.serial + i⟩ : Date)).filter
        (fun d => d.weekday == weekday) =
      (List.range ((n + 6 - first.weekday.daysUntil weekday) / 7)).map fun (i : Nat) =>
        ⟨first.serial + first.weekday.daysUntil weekday + 7 * i⟩ := by
  have offset := Weekday.daysUntil_eq first.weekday weekday
  have few := Weekday.daysUntil_lt first.weekday weekday
  have index := weekday.sundayIndex_lt
  rw [sundayIndex_weekday] at offset
  generalize first.weekday.daysUntil weekday = away at offset few ⊢
  induction n with
  | zero => simp [Nat.div_eq_of_lt (show 6 - away < 7 by omega)]
  | succ n ih =>
    have here : (⟨first.serial + n⟩ : Date).weekday = weekday ↔ n % 7 = away := by
      rw [weekday_eq_iff]
      dsimp only
      omega
    rw [List.range_succ, List.map_append, List.filter_append, ih]
    by_cases onWeekday : n % 7 = away
    next =>
      have more : (n + 1 + 6 - away) / 7 = (n + 6 - away) / 7 + 1 := by omega
      have last : (⟨first.serial + n⟩ : Date) =
          ⟨first.serial + away + 7 * ((n + 6 - away) / 7 : Nat)⟩ := ext (by dsimp only; omega)
      rw [more, List.range_succ, List.map_append, List.map_singleton, List.map_singleton, ← last]
      simp [here.mpr onWeekday]
    next =>
      have same : (n + 1 + 6 - away) / 7 = (n + 6 - away) / 7 := by omega
      have other : (⟨first.serial + n⟩ : Date).weekday ≠ weekday := fun h => onWeekday (here.mp h)
      simp [same, other]

variable {weekday : Weekday} {year : Int} {month : Nat} {d : Date}

theorem daysOn_eq (weekday : Weekday) (year : Int) (month : Nat) :
    daysOn weekday year month =
      (List.range ((Civil.monthLength year month + 6 -
        (on year month 1).weekday.daysUntil weekday) / 7)).map fun (i : Nat) =>
          ⟨(on year month 1).serial + (on year month 1).weekday.daysUntil weekday + 7 * i⟩ := by
  have last := on_serial year month (Civil.monthLength year month)
  have count : ((on year month (Civil.monthLength year month)).serial -
      (on year month 1).serial + 1).toNat = Civil.monthLength year month := by
    omega
  rw [daysOn, range, count, filter_weekday]

theorem length_daysOn (weekday : Weekday) (year : Int) (month : Nat) :
    (daysOn weekday year month).length = (Civil.monthLength year month + 6 -
      (on year month 1).weekday.daysUntil weekday) / 7 := by
  rw [daysOn_eq, List.length_map, List.length_range]

theorem getElem?_daysOn (months : 1 ≤ month ∧ month ≤ 12) {i : Nat} :
    (daysOn weekday year month)[i]? = some d ↔
      (d.year = year ∧ d.month = month) ∧ d.weekday = weekday ∧ d.placeFromStart = i + 1 := by
  have offset := Weekday.daysUntil_eq (on year month 1).weekday weekday
  have few := Weekday.daysUntil_lt (on year month 1).weekday weekday
  have index := weekday.sundayIndex_lt
  have length := Civil.monthLength_bounds year month
  have inMonth := @month_eq_iff d year month months
  have serial := d.serial_eq
  rw [sundayIndex_weekday] at offset
  rw [daysOn_eq, List.getElem?_eq_some_iff, weekday_eq_iff, placeFromStart]
  simp only [List.length_map, List.length_range, List.getElem_map, List.getElem_range,
    exists_prop, eq_comm (b := d), eq_iff_serial]
  constructor
  next =>
    rintro ⟨within, place⟩
    have known := inMonth.mpr (by omega)
    rw [known.1, known.2] at serial
    exact ⟨known, by omega, by omega⟩
  next =>
    rintro ⟨known, onWeekday, place⟩
    have bounds := inMonth.mp known
    rw [known.1, known.2] at serial
    omega

theorem placeFromStart_sub (d : Date) :
    d.placeFromStart - d.placeFromEnd = (daysOn d.weekday d.year d.month).length + 1 := by
  have offset := Weekday.daysUntil_eq (on d.year d.month 1).weekday d.weekday
  have few := Weekday.daysUntil_lt (on d.year d.month 1).weekday d.weekday
  have day := d.day_bounds
  have serial := d.serial_eq
  rw [sundayIndex_weekday, sundayIndex_weekday] at offset
  rw [length_daysOn, placeFromStart, placeFromEnd, ← monthLength]
  omega

theorem getElem?_reverse_daysOn (months : 1 ≤ month ∧ month ≤ 12) {i : Nat} :
    (daysOn weekday year month).reverse[i]? = some d ↔
      (d.year = year ∧ d.month = month) ∧ d.weekday = weekday ∧ d.placeFromEnd = -(i + 1) := by
  by_cases within : i < (daysOn weekday year month).length
  next =>
    rw [List.getElem?_reverse within, getElem?_daysOn months]
    apply and_congr_right
    rintro ⟨rfl, rfl⟩
    apply and_congr_right
    rintro rfl
    have places := d.placeFromStart_sub
    omega
  next =>
    rw [List.getElem?_eq_none (by rwa [List.length_reverse, ← Nat.not_lt])]
    constructor
    next => intro none; cases none
    next =>
      rintro ⟨⟨rfl, rfl⟩, rfl, place⟩
      have places := d.placeFromStart_sub
      have day := d.day_bounds
      simp only [placeFromStart] at places
      omega

theorem place_signs (d : Date) : 0 < d.placeFromStart ∧ d.placeFromEnd < 0 := by
  have day := d.day_bounds
  simp only [placeFromStart, placeFromEnd]
  omega

theorem nthOn_eq_some {nth : Int} (months : 1 ≤ month ∧ month ≤ 12) (notZero : nth ≠ 0) :
    nthOn nth weekday year month = some d ↔
      d.year = year ∧ d.month = month ∧ d.weekday = weekday ∧
        (nth = d.placeFromStart ∨ nth = d.placeFromEnd) := by
  have places := d.place_signs
  rw [nthOn, ← and_assoc]
  split
  next fromStart =>
    rw [getElem?_daysOn months]
    apply and_congr_right'
    apply and_congr_right'
    omega
  next fromEnd =>
    rw [getElem?_reverse_daysOn months]
    apply and_congr_right'
    apply and_congr_right'
    omega

theorem nthWeekday_eq_ok_iff_nthOn {nth : Int} (months : 1 ≤ month ∧ month ≤ 12)
    (notZero : nth ≠ 0) :
    nthWeekday nth weekday year month = .ok d ↔
      (1 ≤ year ∧ year ≤ 9999) ∧ nthOn nth weekday year month = some d := by
  rw [nthWeekday_eq_ok, nthOn_eq_some months notZero, inRange_iff]
  constructor
  next =>
    rintro ⟨known, rfl, place⟩
    exact ⟨known, rfl, place⟩
  next =>
    rintro ⟨known, rfl, place⟩
    exact ⟨known, rfl, place⟩

end Almanac.Date
