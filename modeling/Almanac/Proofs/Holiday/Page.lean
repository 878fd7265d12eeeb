import Almanac.Proofs.Week

set_option autoImplicit false

/-!
# Pages of the calendar

What a day shows on its page of the calendar, which is its month, its day and its weekday, settles
the pages of the days around it up to the length of February.
-/

namespace Almanac

structure Page where
  month : Nat
  day : Nat
  weekday : Weekday
  deriving DecidableEq, Repr

namespace Page

def shift (page : Page) (year offset : Int) : Page :=
  let day := page.day + offset
  let length := Civil.monthLength year page.month
  let preceding := (page.month + 10) % 12 + 1
  let weekday := Weekday.afterSunday (page.weekday.sundayIndex + offset)
  if day < 1 then ⟨preceding, (day + Civil.monthLength year preceding).toNat, weekday⟩
  else if day ≤ length then ⟨page.month, day.toNat, weekday⟩
  else ⟨page.month % 12 + 1, (day - length).toNat, weekday⟩

theorem shift_like (year : Int) :
    ∃ like ∈ ([2023, 2024] : List Int), ∀ (page : Page) (offset : Int),
      page.shift year offset = page.shift like offset := by
  -- The year comes in through the length of February alone.
  have alike : ∀ like : Int, Civil.isLeap year = Civil.isLeap like →
      ∀ (page : Page) (offset : Int), page.shift year offset = page.shift like offset := by
    intro like same page offset
    have lengths : ∀ month, Civil.monthLength year month = Civil.monthLength like month := by
      intro month
      unfold Civil.monthLength
      rw [same]
    simp only [shift, lengths]
  cases leap : Civil.isLeap year with
  | false => exact ⟨2023, by decide, alike 2023 leap⟩
  | true => exact ⟨2024, by decide, alike 2024 leap⟩

end Page

namespace Date

def page (d : Date) : Page :=
  ⟨d.month, d.day, d.weekday⟩

theorem page_eq {d : Date} {month day : Nat} (year : Int) (months : 1 ≤ month ∧ month ≤ 12)
    (days : 1 ≤ day ∧ day ≤ Civil.monthLength year month)
    (serial : d.serial = (on year month 1).serial + day - 1) :
    d.page = ⟨month, day, Weekday.afterSunday (d.serial + 4)⟩ := by
  have same : d = on year month day := by
    rw [eq_iff_serial, serial, ← on_serial]
  have valid : Civil.Valid ⟨year, month, day⟩ := ⟨months.1, months.2, days.1, days.2⟩
  have inMonth := month_on valid
  have onDay := day_on valid
  rw [← same] at inMonth onDay
  rw [page, inMonth, onDay, weekday]

theorem followingMonth (year : Int) {month : Nat} (h : 1 ≤ month ∧ month ≤ 12) :
    ∃ itsYear, (on itsYear (month % 12 + 1) 1).serial =
      (on year month 1).serial + Civil.monthLength year month := by
  by_cases december : month = 12
  next =>
    subst december
    exact ⟨year + 1, december_serial year⟩
  next =>
    refine ⟨year, ?_⟩
    rw [Nat.mod_eq_of_lt (show month < 12 by omega)]
    exact month_succ_serial year (by omega)

theorem precedingMonth (year : Int) {month : Nat} (h : 1 ≤ month ∧ month ≤ 12) :
    ∃ itsYear, Civil.monthLength itsYear ((month + 10) % 12 + 1) =
        Civil.monthLength year ((month + 10) % 12 + 1) ∧
      (on year month 1).serial = (on itsYear ((month + 10) % 12 + 1) 1).serial +
        Civil.monthLength year ((month + 10) % 12 + 1) := by
  by_cases january : month = 1
  next =>
    subst january
    have december := december_serial (year - 1)
    rw [Int.sub_add_cancel] at december
    exact ⟨year - 1, rfl, december⟩
  next =>
    have next := @month_succ_serial year (month - 1) (by omega)
    rw [Nat.sub_add_cancel h.1] at next
    rw [show (month + 10) % 12 + 1 = month - 1 by omega]
    exact ⟨year, rfl, next⟩

theorem page_shift (d : Date) {offset : Int} (few : -27 ≤ offset ∧ offset ≤ 28) :
    (⟨d.serial + offset⟩ : Date).page = d.page.shift d.year offset := by
  have day := d.day_bounds
  have months := d.month_bounds
  have length := Civil.monthLength_bounds d.year d.month
  have serial := d.serial_eq
  have index := d.sundayIndex_weekday
  have weekday : Weekday.afterSunday (d.serial + offset + 4) =
      Weekday.afterSunday (d.weekday.sundayIndex + offset) := by
    unfold Weekday.afterSunday
    rw [show (d.serial + offset + 4) % 7 = (d.weekday.sundayIndex + offset) % 7 by omega]
  rw [monthLength] at day
  simp only [Page.shift, page, ← weekday]
  split
  next before =>
    -- Less than a month away the day lies in this month or in one next to it.
    obtain ⟨itsYear, sameLength, precedes⟩ := precedingMonth d.year months
    have itsLength := Civil.monthLength_bounds d.year ((d.month + 10) % 12 + 1)
    exact page_eq itsYear (by omega) (by omega) (by simp only; omega)
  next notBefore =>
    split
    next within => exact page_eq d.year months (by omega) (by simp only; omega)
    next beyond =>
      obtain ⟨itsYear, follows⟩ := followingMonth d.year months
      have itsLength := Civil.monthLength_bounds itsYear (d.month % 12 + 1)
      exact page_eq itsYear (by omega) (by omega) (by simp only; omega)

end Date

end Almanac
