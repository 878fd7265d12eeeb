import Almanac.Proofs.Date.Civil

set_option autoImplicit false

/-!
# Checked dates and their parts

A checked constructor gives a date exactly when that date lies in the years 1 to 9999 and has the
parts that the constructor is given.
-/

namespace Almanac

theorem bind_eq_ok_iff {ε α β : Type} {x : Except ε α} {f : α → Except ε β} {b : β} :
    (x >>= f) = .ok b ↔ ∃ a, x = .ok a ∧ f a = .ok b := by
  cases x with
  | error e => simp [bind, Except.bind]
  | ok a => simp [bind, Except.bind]

theorem checkRange_bind_eq_ok {β : Type} {quantity : Quantity} {value low high : Int}
    {rest : Unit → Except Error β} {b : β} :
    (checkRange quantity value low high >>= rest) = .ok b ↔
      (low ≤ value ∧ value ≤ high) ∧ rest () = .ok b := by
  rw [bind_eq_ok_iff, ← @checkRange_eq_ok quantity]
  constructor
  next =>
    rintro ⟨⟨⟩, passed⟩
    exact passed
  next => exact fun passed => ⟨(), passed⟩

namespace Date

theorem ofYearMonthDay_of_valid {year : Int} {month day : Nat} (known : 1 ≤ year ∧ year ≤ 9999)
    (valid : Civil.Valid ⟨year, month, day⟩) :
    ofYearMonthDay year month day = .ok (on year month day) := by
  rw [ofYearMonthDay, if_neg (not_not_intro known),
    if_neg (not_not_intro ⟨valid.1, valid.2.1⟩), if_neg (not_not_intro valid.2.2)]

theorem of_ofYearMonthDay {year : Int} {month day : Nat} {d : Date}
    (h : ofYearMonthDay year month day = .ok d) :
    (1 ≤ year ∧ year ≤ 9999) ∧ Civil.Valid ⟨year, month, day⟩ ∧ d = on year month day := by
  unfold ofYearMonthDay at h
  split at h
  next => cases h
  next known =>
    split at h
    next => cases h
    next inYear =>
      split at h
      next => cases h
      next inMonth =>
        cases h
        have month := Decidable.of_not_not inYear
        have day := Decidable.of_not_not inMonth
        exact ⟨Decidable.of_not_not known, ⟨month.1, month.2, day.1, day.2⟩, rfl⟩

theorem ofYearMonthDay_eq_ok {year : Int} {month day : Nat} {d : Date} :
    ofYearMonthDay year month day = .ok d ↔
      d.InRange ∧ d.year = year ∧ d.month = month ∧ d.day = day := by
  constructor
  next =>
    intro h
    obtain ⟨known, valid, rfl⟩ := of_ofYearMonthDay h
    rw [inRange_iff, year_on valid, month_on valid, day_on valid]
    exact ⟨known, rfl, rfl, rfl⟩
  next =>
    rintro ⟨inRange, rfl, rfl, rfl⟩
    have valid : Civil.Valid ⟨d.year, d.month, d.day⟩ := d.valid_civil
    rw [ofYearMonthDay_of_valid (inRange_iff.mp inRange) valid, on_parts]

theorem dayOfYear_eq (d : Date) : (d.dayOfYear : Int) = d.serial - (on d.year 1 1).serial + 1 := by
  have inYear := d.year_spec
  unfold dayOfYear
  omega

theorem dayOfYear_bounds (d : Date) : 1 ≤ d.dayOfYear ∧ d.dayOfYear ≤ Civil.yearLength d.year := by
  have day := d.dayOfYear_eq
  have inYear := d.year_spec
  rw [newYear_succ] at inYear
  omega

theorem monthStart_hasRoom {year : Int} {month : Nat} (known : 1 ≤ year ∧ year ≤ 9999)
    (months : 1 ≤ month ∧ month ≤ 12) : (on year month 1).HasRoom 365000 := by
  apply Inland.hasRoom
  rw [Inland, year_on (valid_first year months)]
  omega

theorem ofYearDay_eq_ok {year : Int} {day : Nat} {d : Date} :
    ofYearDay year day = .ok d ↔ d.InRange ∧ d.year = year ∧ d.dayOfYear = day := by
  have next := newYear_succ year
  have length := Civil.yearLength_bounds year
  unfold ofYearDay
  rw [checkRange_bind_eq_ok, bind_eq_ok_iff]
  constructor
  next =>
    rintro ⟨inYear, first, isFirst, found⟩
    obtain ⟨known, -, rfl⟩ := of_ofYearMonthDay isFirst
    cases found
    have room := @monthStart_hasRoom year 1 known (by decide)
    have serial := room.plus_serial (show _ ≤ (day : Int) - 1 ∧ _ by omega)
    -- The ordinal is within the length of the year, so the day is still in it.
    have sameYear : ((on year 1 1).plus ((day : Int) - 1)).year = year := by
      rw [year_eq_iff]
      omega
    have found := ((on year 1 1).plus ((day : Int) - 1)).dayOfYear_eq
    rw [sameYear] at found
    exact ⟨inRange_iff.mpr (by omega), sameYear, by omega⟩
  next =>
    rintro ⟨inRange, rfl, rfl⟩
    have known := inRange_iff.mp inRange
    have bounds := d.dayOfYear_bounds
    have day := d.dayOfYear_eq
    have room := @monthStart_hasRoom d.year 1 known (by decide)
    refine ⟨by omega, on d.year 1 1, ?_, ?_⟩
    next => exact ofYearMonthDay_of_valid known (valid_first _ (by decide))
    next =>
      apply congrArg Except.ok
      apply ext
      rw [room.plus_serial (by omega), day]
      omega

end Date

end Almanac
