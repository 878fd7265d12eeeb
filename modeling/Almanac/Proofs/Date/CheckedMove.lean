import Almanac.Proofs.Chunk.Numbering
import Almanac.Proofs.Date.Word

set_option autoImplicit false

/-!
# Checked moves

A move by days, months or years that is checked at its end gives the date that lies so far off when
the years 1 to 9999 hold it and an invalid date otherwise, however far the move reaches.
-/

namespace Almanac.Date

/-- A result that is a date when one is admitted, which is then the date that is asked for, and the
error of an invalid date otherwise. -/
structure ExactMove (result : Except Error Date) (admitted : Prop) (reaches : Date → Prop) :
    Prop where
  eq_ok_iff : ∀ r, result = .ok r ↔ admitted ∧ reaches r
  exists_ok : admitted → ∃ r, result = .ok r
  invalid : ¬admitted → ∃ fault, result = .error (.invalidDate fault)

variable {d r : Date} {n : Int}

theorem ofSerial_of_inRange (inRange : r.InRange) : ofSerial r.serial = .ok r :=
  ofSerial_eq_ok.mpr ⟨inRange, rfl⟩

theorem ofSerial_of_not_inRange (beyond : ¬r.InRange) :
    ofSerial r.serial = .error (.invalidDate (.serial r.serial)) :=
  if_neg beyond

theorem ExactMove.ofEnd {admitted : Prop} {reaches : Date → Prop}
    (inRange_iff : r.InRange ↔ admitted) (reaches_iff : admitted → ∀ e, reaches e ↔ e = r) :
    ExactMove (ofSerial r.serial) admitted reaches where
  eq_ok_iff e := by
    rw [ofSerial_eq_ok, ← eq_iff_serial]
    constructor
    next =>
      rintro ⟨inRange, rfl⟩
      have inside := inRange_iff.mp inRange
      exact ⟨inside, (reaches_iff inside e).mpr rfl⟩
    next =>
      rintro ⟨inside, there⟩
      rw [(reaches_iff inside e).mp there]
      exact ⟨inRange_iff.mpr inside, rfl⟩
  exists_ok inside := ⟨r, ofSerial_of_inRange (inRange_iff.mpr inside)⟩
  invalid beyond := ⟨_, ofSerial_of_not_inRange fun inRange => beyond (inRange_iff.mp inRange)⟩

theorem exact_addDays (d : Date) (n : Int) :
    ExactMove (d.addDays n) (earliest.serial ≤ d.serial + n ∧ d.serial + n ≤ latest.serial)
      fun r => r.serial = d.serial + n := by
  have inside : ExactMove (ofSerial (d.serial + n))
      (earliest.serial ≤ d.serial + n ∧ d.serial + n ≤ latest.serial)
      fun r => r.serial = d.serial + n :=
    @ExactMove.ofEnd ⟨d.serial + n⟩ _ _ Iff.rfl fun _ e => eq_iff_serial.symm
  unfold addDays
  split
  next => exact inside
  next overflow =>
    -- The words reach further than the years, so a sum that is no word is no date either.
    have beyond : ¬(earliest.serial ≤ d.serial + n ∧ d.serial + n ≤ latest.serial) := by
      unfold IsWord at overflow
      rw [earliest_serial, latest_serial]
      omega
    exact ⟨fun r => iff_of_false (fun h => by cases h) fun h => beyond h.1,
      fun h => absurd h beyond, fun _ => ⟨_, rfl⟩⟩

theorem inRange_iff_monthIndex :
    d.InRange ↔ 1 ≤ d.monthIndex / 12 ∧ d.monthIndex / 12 ≤ 9999 := by
  rw [inRange_iff, year_eq_monthIndex]

theorem inRange_shiftMonths_iff :
    (d.shiftMonths n).InRange ↔
      1 ≤ (d.monthIndex + n) / 12 ∧ (d.monthIndex + n) / 12 ≤ 9999 := by
  rw [inRange_iff_monthIndex, monthIndex_shiftMonths_cut]
  -- The count of the months is cut to years that are not admitted.
  omega

theorem exact_shiftMonths (d : Date) (n : Int) :
    ExactMove (ofSerial (d.shiftMonths n).serial)
      (1 ≤ (d.monthIndex + n) / 12 ∧ (d.monthIndex + n) / 12 ≤ 9999)
      fun r => r.monthIndex = d.monthIndex + n ∧ r.day = min d.day r.monthLength := by
  apply ExactMove.ofEnd inRange_shiftMonths_iff
  intro inside e
  rw [← shiftMonths_eq_iff (by omega), eq_comm]

theorem exact_addYears (d : Date) (n : Int) :
    ExactMove (d.addYears n) (1 ≤ d.year + n ∧ d.year + n ≤ 9999)
      fun r => r.year = d.year + n ∧ r.month = d.month ∧ r.day = min d.day r.monthLength := by
  have years := d.year_eq_monthIndex
  refine @ExactMove.ofEnd (d.shiftMonths (12 * n)) _ _ ?_ fun inside e => ?_
  next =>
    rw [inRange_shiftMonths_iff]
    omega
  next =>
    have month := d.month_eq_monthIndex
    have endYear := e.year_eq_monthIndex
    have endMonth := e.month_eq_monthIndex
    rw [@eq_comm Date e, shiftMonths_eq_iff (by omega)]
    omega

/-- A checked move by days, months or years gives the date that lies so far off when it lies in the
years 1 to 9999, and an invalid date otherwise. What it gives is where the unchecked move leads,
and in machine words the move comes to the same. -/
theorem checked_moves_exact {d : Date} (inYears : d.Representable) (n : Int) :
    ExactMove (d.addDays n) (earliest.serial ≤ d.serial + n ∧ d.serial + n ≤ latest.serial)
      (fun r => r.serial = d.serial + n) ∧
    ExactMove (d.addMonths n)
      (1 ≤ (d.monthIndex + n) / 12 ∧ (d.monthIndex + n) / 12 ≤ 9999)
      (fun r => r.monthIndex = d.monthIndex + n ∧ r.day = min d.day r.monthLength) ∧
    ExactMove (d.addYears n) (1 ≤ d.year + n ∧ d.year + n ≤ 9999)
      (fun r => r.year = d.year + n ∧ r.month = d.month ∧ r.day = min d.day r.monthLength) ∧
    (∀ r, d.addDays n = .ok r → r = d.plus n) ∧
    (∀ r, d.addMonths n = .ok r → r = Chunk.month.advance d n) ∧
    (∀ r, d.addYears n = .ok r → r = Chunk.year.advance d n) ∧
    (Word.addDays? d n = some (d.addDays n) ∧ Word.addMonths? d n = some (d.addMonths n) ∧
      Word.addYears? d n = some (d.addYears n)) := by
  refine ⟨exact_addDays d n, exact_shiftMonths d n, exact_addYears d n, ?_, ?_, ?_,
    Word.addDays?_eq inYears n, Word.addMonths?_eq inYears n, Word.addYears?_eq inYears n⟩
  next =>
    intro r found
    obtain ⟨inside, serial⟩ := ((exact_addDays d n).eq_ok_iff r).mp found
    rw [earliest_serial, latest_serial] at inside
    apply ext
    rw [serial, plus_serial (by rw [floor_serial, ceiling_serial]; omega)]
  next =>
    intro r found
    have moved (n : Int) (h : n ≠ 0) : Chunk.month.advance d n = d.shiftMonths n := if_neg h
    rw [Chunk.advance_eq_of_still inYears.shiftMonths_zero moved n]
    exact ext (ofSerial_eq_ok.mp found).2
  next =>
    intro r found
    have still : d.shiftMonths (12 * 0) = d := inYears.shiftMonths_zero
    have moved (n : Int) (h : n ≠ 0) : Chunk.year.advance d n = d.shiftMonths (12 * n) := if_neg h
    rw [@Chunk.advance_eq_of_still _ _ (fun n => d.shiftMonths (12 * n)) still moved n]
    exact ext (ofSerial_eq_ok.mp found).2

theorem checked_moves_exact_leap_day :
    (on 2024 2 29).Representable ∧ (on 2024 2 29).addYears (-1) = .ok (on 2023 2 28) ∧
      on 2023 2 28 = Chunk.year.advance (on 2024 2 29) (-1) ∧
      ∃ fault, (on 2024 2 29).addMonths 2147483647 = .error (.invalidDate fault) := by
  have inYears : (on 2024 2 29).Representable := by decide
  obtain ⟨-, -, years, -, -, moved, -⟩ := checked_moves_exact inYears (-1)
  obtain ⟨-, far, -⟩ := checked_moves_exact inYears 2147483647
  have back : (on 2024 2 29).addYears (-1) = .ok (on 2023 2 28) :=
    (years.eq_ok_iff _).mpr (by decide)
  exact ⟨inYears, back, moved _ back, far.invalid (by decide)⟩

end Almanac.Date
