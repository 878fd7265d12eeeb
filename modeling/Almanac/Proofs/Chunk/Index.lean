import Almanac.Proofs.Chunk.Advance
import Almanac.Proofs.Date.Occurrence
import Mathlib.Data.Set.Card

set_option autoImplicit false

/-!
# Numbers of periods in their year

Halves, quarters, bimonths, months and half months are numbered from the start of their year. The
number tells the periods of a year apart, and it counts those that begin in the year up to a date.
-/

namespace Almanac

theorem Date.nodup_range (first last : Date) : (range first last).Nodup := by
  apply (range_sorted first last).imp
  intro a b earlier same
  rw [lt_def, same] at earlier
  omega

theorem ncard_eq_tally (p : Date → Bool) (a b : Int) :
    {x : Date | (a < x.serial ∧ x.serial ≤ b) ∧ p x = true}.ncard = tally p a b := by
  have listed : {x : Date | (a < x.serial ∧ x.serial ≤ b) ∧ p x = true} =
      ((Date.range ⟨a + 1⟩ ⟨b⟩).filter p).toFinset := by
    ext x
    rw [List.coe_toFinset, Set.mem_ofPred_eq, Set.mem_ofPred_eq, List.mem_filter, Date.mem_range]
    exact Iff.rfl
  rw [listed, Set.ncard_coe_finset, List.toFinset_card_of_nodup ((Date.nodup_range _ _).filter p),
    tally, List.countP_eq_length_filter]

namespace Chunk

variable {chunk : Chunk} {settings : Settings} {number : Date → Int} {index : Date → Nat}
  {count : Nat} {a b d x : Date}

namespace Numbers

variable (numbers : chunk.Numbers settings number)

include numbers

theorem beginningOf_eq_iff (roomX : x.HasRoom 1300) (roomD : d.HasRoom 1300) :
    chunk.beginningOf x settings = chunk.beginningOf d settings ↔ number x = number d := by
  constructor
  next =>
    intro same
    rw [← numbers.number_beginningOf roomX, same, numbers.number_beginningOf roomD]
  next => exact fun same => (numbers.same_span roomD same).1

theorem number_step (room : b.HasRoom 2000) (next : b.serial = a.serial + 1) :
    number b = number a + if chunk.isBeginningOf b settings then 1 else 0 := by
  have first := (isSpan chunk settings (room.mono (show 1300 ≤ 2000 by decide))).first_le
  have last := (isSpan chunk settings (room.mono (show 1300 ≤ 2000 by decide))).le_last
  by_cases start : chunk.beginningOf b settings = b
  next =>
    have serial := before_serial room
    have before := numbers.number_before room start
    rw [show b.minus 1 = a from Date.ext (by omega)] at before
    rw [if_pos (isBeginningOf_iff.mpr start)]
    omega
  next =>
    -- The period of a day that begins none holds the day before as well.
    have other := isBeginningOf_iff.not.mpr start
    rw [Date.eq_iff_serial] at start
    rw [Date.le_def] at first last
    have within : chunk.beginningOf b settings ≤ a ∧ a ≤ chunk.endOf b settings := by
      rw [Date.le_def, Date.le_def]
      omega
    have same := (numbers.mem_iff (room.mono (by decide))).mp within
    rw [if_neg other, same, Int.add_zero]

theorem number_eq_tally (roomA : a.HasRoom 2000) (roomB : b.HasRoom 2000) (h : a ≤ b) :
    number b =
      number a + tally (fun x => chunk.isBeginningOf x settings) a.serial b.serial := by
  obtain ⟨n, days⟩ : ∃ n : Nat, b.serial = a.serial + n :=
    ⟨(b.serial - a.serial).toNat, by rw [Date.le_def] at h; omega⟩
  induction n generalizing b with
  | zero =>
    rw [Date.ext (show b.serial = a.serial by omega), tally_eq_zero (by omega), Int.natCast_zero,
      Int.add_zero]
  | succ n ih =>
    obtain ⟨before, last⟩ : ∃ x : Date, x.serial = a.serial + n := ⟨⟨_⟩, rfl⟩
    have low : a ≤ before := by rw [Date.le_def]; omega
    have high : before ≤ b := by rw [Date.le_def]; omega
    have sum := @tally_add (fun x => chunk.isBeginningOf x settings) _ _ _ low high
    have day := tally_day (fun x => chunk.isBeginningOf x settings) b.serial
    rw [show b.serial - 1 = before.serial by omega] at day
    rw [numbers.number_step roomB (show b.serial = before.serial + 1 by omega),
      ih (roomA.between roomB low high) low last, ← sum, day]
    split <;> omega

end Numbers

theorem InYear.number_newYear (inYear : InYear number index count)
    (numbers : chunk.Numbers settings number) {before : Date} {year : Int}
    (last : before.serial = (Date.on year 1 1).serial - 1) :
    number before + 1 = count * year := by
  have length := Civil.yearLength_bounds (year - 1)
  have january := Date.newYear_succ (year - 1)
  rw [Int.sub_add_cancel] at january
  have yearBefore : before.year = year - 1 := by
    rw [Date.year_eq_iff, Int.sub_add_cancel]
    omega
  have newYear := Date.year_on (Date.valid_first year (show 1 ≤ 1 ∧ 1 ≤ 12 by decide))
  have step := numbers.next (show (Date.on year 1 1).serial = before.serial + 1 by omega)
  have first := inYear.number_eq (Date.on year 1 1)
  have firstBounds := inYear.bounds (Date.on year 1 1)
  have bounds := inYear.bounds before
  have placed := inYear.number_eq before
  rw [newYear] at first
  rw [yearBefore, Int.mul_sub, Int.mul_one] at placed
  omega

theorem InYear.index_eq_ncard (inYear : InYear number index count)
    (numbers : chunk.Numbers settings number) (inland : d.Inland) :
    index d = {first : Date | first.year = d.year ∧ first ≤ d ∧
      chunk.isBeginningOf first settings = true}.ncard := by
  have room := inland.hasRoom
  have within := d.year_spec
  have length := Civil.yearLength_bounds d.year
  have january := Date.newYear_succ d.year
  let before : Date := ⟨(Date.on d.year 1 1).serial - 1⟩
  have last : before.serial = (Date.on d.year 1 1).serial - 1 := rfl
  have begun : {first : Date | first.year = d.year ∧ first ≤ d ∧
      chunk.isBeginningOf first settings = true} =
        {x : Date | (before.serial < x.serial ∧ x.serial ≤ d.serial) ∧
          chunk.isBeginningOf x settings = true} := by
    ext x
    rw [Set.mem_ofPred_eq, Set.mem_ofPred_eq, ← and_assoc, Date.year_eq_iff, Date.le_def]
    apply and_congr_left'
    omega
  have newYear := inYear.number_newYear numbers last
  have placed := inYear.number_eq d
  have counted := numbers.number_eq_tally (a := before) (b := d) (room.near (by omega))
    (room.mono (by decide)) (by rw [Date.le_def]; omega)
  rw [begun, ncard_eq_tally]
  omega

def index? : Chunk → Option (Date → Nat)
  | .half => some Date.half
  | .quarter => some Date.quarter
  | .bimonth => some Date.bimonth
  | .month => some Date.month
  | .semimonth => some Date.semimonth
  | .year | .biweek | .week | .day => none

theorem inYear_semimonth : InYear halfMonthIndex Date.semimonth 24 where
  bounds d := by
    have months := d.month_bounds
    unfold Date.semimonth
    split <;> omega
  number_eq d := by
    have months := d.month_bounds
    unfold halfMonthIndex Date.monthIndex Date.semimonth
    split <;> omega

theorem spanOf_one (d : Date) : Month.spanOf 1 d.month = d.month := by
  have months := d.month_bounds
  unfold Month.spanOf
  omega

theorem exists_inYear (settings : Settings) (numbered : chunk.index? = some index) :
    ∃ number count, chunk.Numbers settings number ∧ InYear number index count := by
  cases chunk with
  | half => cases numbered; exact ⟨_, 2, numbers_months rfl, inYear_months (by decide)⟩
  | quarter => cases numbered; exact ⟨_, 4, numbers_months rfl, inYear_months (by decide)⟩
  | bimonth => cases numbered; exact ⟨_, 6, numbers_months rfl, inYear_months (by decide)⟩
  | month =>
    cases numbered
    have inYear := @inYear_months 1 12 (by decide)
    simp only [spanOf_one] at inYear
    exact ⟨_, 12, numbers_months rfl, inYear⟩
  | semimonth => cases numbered; exact ⟨_, 24, numbers_semimonth, inYear_semimonth⟩
  | year | biweek | week | day => cases numbered

/-- Two dates lie in the same period exactly when they have the same number in the same year, and
the number counts the periods that begin in the year on the date or before it. -/
theorem index_counts_spans (settings : Settings) (numbered : chunk.index? = some index)
    {d e : Date} (inlandD : d.Inland) (inlandE : e.Inland) :
    (chunk.beginningOf d settings = chunk.beginningOf e settings ↔
      d.year = e.year ∧ index d = index e) ∧
    index d = {first : Date | first.year = d.year ∧ first ≤ d ∧
      chunk.isBeginningOf first settings = true}.ncard := by
  obtain ⟨number, count, numbers, inYear⟩ := exists_inYear settings numbered
  constructor
  next =>
    rw [numbers.beginningOf_eq_iff (inlandD.hasRoom.mono (by decide))
      (inlandE.hasRoom.mono (by decide)), inYear.number_eq_iff]
  next => exact inYear.index_eq_ncard numbers inlandD

-- The leap day lies in the second half month of February, the fourth that begins in its year.
theorem index_counts_spans_leap_day :
    semimonth.index? = some Date.semimonth ∧ (Date.on 2024 2 29).Inland ∧
      (Date.on 2024 2 16).Inland ∧ (Date.on 2024 2 15).Inland ∧
      semimonth.beginningOf (Date.on 2024 2 29) {} =
        semimonth.beginningOf (Date.on 2024 2 16) {} ∧
      semimonth.beginningOf (Date.on 2024 2 29) {} ≠
        semimonth.beginningOf (Date.on 2024 2 15) {} ∧
      {first : Date | first.year = (Date.on 2024 2 29).year ∧ first ≤ Date.on 2024 2 29 ∧
        semimonth.isBeginningOf first {} = true}.ncard = 4 := by
  have leapDay : (Date.on 2024 2 29).Inland := by decide
  have late : (Date.on 2024 2 16).Inland := by decide
  have early : (Date.on 2024 2 15).Inland := by decide
  obtain ⟨same, counts⟩ := @index_counts_spans semimonth _ {} rfl _ _ leapDay late
  obtain ⟨other, -⟩ := @index_counts_spans semimonth _ {} rfl _ _ leapDay early
  exact ⟨rfl, leapDay, late, early, same.mpr (by decide), other.not.mpr (by decide),
    counts.symm.trans (by decide)⟩

end Chunk

end Almanac
