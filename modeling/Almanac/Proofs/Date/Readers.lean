import Almanac.Period.Resolve
import Almanac.Proofs.Date.American
import Almanac.Proofs.Period.RoundTrip

set_option autoImplicit false

/-!
# The readers of dates agree

A date in the checked range has a text for each of three readers: the one for a date alone, the one
for periods, and the one for dates in the American order. Each reads this date from its text.
-/

namespace Almanac.Date

open Text (Blanks Numeral padded)
open Form (IsSeparator)
open American (Spaced IsYear Denotes inCentury)

variable {d : Date} {s month day year : List Char} {n : Nat}

theorem written_separated (inRange : d.InRange) {first second : Char} (hf : IsSeparator first)
    (hs : IsSeparator second) :
    Period.Written (.month (some d.year) d.month (some d.day)) (d.separated first second) := by
  have known := inRange_iff.mp inRange
  have months := d.month_bounds
  have days := d.day_le
  obtain ⟨y, same⟩ := Int.eq_ofNat_of_zero_le (show 0 ≤ d.year by omega)
  have before : Writing.NumberFirst 4 4 (some (y : Int)) (padded 4 y ++ [first]) := by
    have places := @Text.length_padded 4 y (by decide) (by omega)
    exact .present (Text.numeral_padded 4 y) (by omega) hf
  have places := @Text.length_padded 2 d.month (by decide) (by omega)
  have after : Writing.NumberLast 1 2 ((some d.day).map Nat.cast) (second :: padded 2 d.day) := by
    have places := @Text.length_padded 2 d.day (by decide) (by omega)
    exact .present hs (Text.numeral_padded 2 d.day) (by omega)
  have written := Period.Written.month before (Text.numeral_padded 2 d.month) (by omega) after
  rw [separated, same]
  simpa only [List.append_assoc, List.singleton_append] using written

theorem resolveText_separated (inRange : d.InRange) {first second : Char}
    (hf : IsSeparator first) (hs : IsSeparator second) (edge : Edge) (today : Date)
    (settings : Settings) :
    Spec.resolveText (d.separated first second) edge today settings = .ok (some d) := by
  have known := inRange_iff.mp inRange
  have days := d.day_le
  have documented : Period.Documented (.month (some d.year) d.month (some d.day)) := by
    refine ⟨?_, d.month_bounds, ?_⟩
    next =>
      rintro _ ⟨⟩
      omega
    next =>
      rintro _ ⟨⟩
      omega
  have read := Period.read_of_written (written_separated inRange hf hs) documented
  have found : ofYearMonthDay d.year d.month d.day = .ok d :=
    ofYearMonthDay_eq_ok.mpr ⟨inRange, rfl, rfl, rfl⟩
  have resolved : Period.resolve (.month (some d.year) d.month (some d.day)) edge today settings =
      .ok (some d) := bind_eq_ok_iff.mpr ⟨d, found, rfl⟩
  exact bind_eq_ok_iff.mpr ⟨_, read, bind_eq_ok_iff.mpr ⟨_, resolved, rfl⟩⟩

theorem readAmerican_of_numerals (spaced : Spaced month day year s)
    (months : Numeral d.month month) (monthPlaces : month.length ≤ 2)
    (days : Numeral d.day day) (dayPlaces : day.length ≤ 2)
    (years : Numeral n year) (isYear : year.length = 2 ∨ year.length = 4)
    (same : d.year = inCentury n) : readAmerican s = .ok d := by
  have ascii {n : Nat} {s : List Char} (number : Numeral n s) : s.all Char.isDigit = true :=
    List.all_eq_true.mpr number.digits
  have run {n : Nat} {s : List Char} (number : Numeral n s) (places : s.length ≤ 2) :
      Form.IsRun 1 2 s :=
    Writing.isRun_of_numeral number ⟨List.length_pos_iff.mpr number.nonempty, places⟩
  have yearRun : IsYear year :=
    isYear.imp (fun places => Writing.isRun_of_numeral years (by omega))
      fun places => Writing.isRun_of_numeral years (by omega)
  have denotes : Denotes month day year s d.month d.day n :=
    ⟨⟨spaced, run months monthPlaces, run days dayPlaces, yearRun⟩, months.unsigned?,
      days.unsigned?, years.unsigned?⟩
  refine American.readAmerican_eq_ok_iff.mpr
    ⟨month, day, year, n, denotes, ascii months, ascii days, ?_⟩
  rw [if_pos (ascii years), same]

/-- A date in the checked range is read from its text by each reader, whatever the current date, the
settings and the edge are. -/
theorem readers_agree {d : Date} (inRange : d.InRange) :
    (d.text.toList = d.separated '-' '-' ∧ readIso d.text.toList = .ok d) ∧
    (∀ first second, IsSeparator first → IsSeparator second → ∀ edge today settings,
      Spec.resolveText (d.separated first second) edge today settings = .ok (some d)) ∧
    ∀ s month day year, Spaced month day year s →
      Numeral d.month month → month.length ≤ 2 → Numeral d.day day → day.length ≤ 2 →
      (100 ≤ d.year → Numeral d.year.toNat year → year.length = 4 → readAmerican s = .ok d) ∧
      (2000 ≤ d.year → d.year ≤ 2099 → Numeral (d.year - 2000).toNat year → year.length = 2 →
        readAmerican s = .ok d) := by
  refine ⟨?_, ?_, ?_⟩
  next =>
    have shown : d.text.toList = d.chars := String.toList_ofList
    have read := toOption_readIso_text inRange.representable
    rw [if_pos inRange] at read
    exact ⟨shown.trans d.chars_eq, toOption_eq_some_iff.mp read⟩
  next =>
    intro first second hf hs edge today settings
    exact resolveText_separated inRange hf hs edge today settings
  next =>
    intro s month day year spaced months monthPlaces days dayPlaces
    have read {n : Nat} := @readAmerican_of_numerals d s month day year n spaced months
      monthPlaces days dayPlaces
    constructor
    next =>
      intro late years places
      refine read years (.inr places) ?_
      unfold inCentury
      split <;> omega
    next =>
      intro late early years places
      refine read years (.inl places) ?_
      unfold inCentury
      split <;> omega

-- The second of September in the other order.
theorem readers_agree_ninth_of_february :
    (on 2024 2 9).InRange ∧ IsSeparator '/' ∧ IsSeparator '-' ∧
      readIso "2024-02-09".toList = .ok (on 2024 2 9) ∧
      Spec.resolveText "2024/02-09".toList .last (on 1999 12 31) ⟨.friday, 1752⟩ =
        .ok (some (on 2024 2 9)) ∧
      Spaced ['0', '2'] ['9'] ['2', '0', '2', '4'] "02 / 9-2024".toList ∧
      Numeral 2 ['0', '2'] ∧ Numeral 9 ['9'] ∧ Numeral 2024 ['2', '0', '2', '4'] ∧
      readAmerican "02 / 9-2024".toList = .ok (on 2024 2 9) ∧
      Spaced ['2'] ['9'] ['2', '4'] "2/9-24".toList ∧ Numeral 2 ['2'] ∧ Numeral 24 ['2', '4'] ∧
      readAmerican "2/9-24".toList = .ok (on 2024 2 9) := by
  have inRange : (on 2024 2 9).InRange := by decide
  have slash : IsSeparator '/' := .inr rfl
  have dash : IsSeparator '-' := .inl rfl
  have gap : Blanks [' '] := List.all_eq_true.mp rfl
  have nothing : Blanks [] := List.forall_mem_nil _
  have months : Numeral 2 ['0', '2'] := ⟨by decide, List.all_eq_true.mp rfl, rfl⟩
  have days : Numeral 9 ['9'] := ⟨by decide, List.all_eq_true.mp rfl, rfl⟩
  have years : Numeral 2024 ['2', '0', '2', '4'] := ⟨by decide, List.all_eq_true.mp rfl, rfl⟩
  have spaced : Spaced ['0', '2'] ['9'] ['2', '0', '2', '4'] "02 / 9-2024".toList :=
    .intro (American.around _ nothing gap) slash (American.around _ gap nothing) dash
      (American.around _ nothing nothing)
  have month : Numeral 2 ['2'] := ⟨by decide, List.all_eq_true.mp rfl, rfl⟩
  have year : Numeral 24 ['2', '4'] := ⟨by decide, List.all_eq_true.mp rfl, rfl⟩
  have closed : Spaced ['2'] ['9'] ['2', '4'] "2/9-24".toList := .closed slash dash
  have parts : (on 2024 2 9).civil = ⟨2024, 2, 9⟩ := rfl
  have shown : (on 2024 2 9).text.toList = "2024-02-09".toList := by
    simp [text, chars, Date.year, Date.month, Date.day, parts, padded, Text.padStart, Text.decimal]
  have slashed : (on 2024 2 9).separated '/' '-' = "2024/02-09".toList := by
    simp [separated, Date.year, Date.month, Date.day, parts, padded, Text.padStart, Text.decimal]
  have agree := readers_agree inRange
  have resolved := agree.2.1 '/' '-' slash dash .last (on 1999 12 31) ⟨.friday, 1752⟩
  have long := agree.2.2 _ _ _ _ spaced months (by decide) days (by decide)
  have short := agree.2.2 _ _ _ _ closed month (by decide) days (by decide)
  rw [shown] at agree
  rw [slashed] at resolved
  exact ⟨inRange, slash, dash, agree.1.2, resolved, spaced, months, days, years,
    long.1 (by decide) years rfl, closed, month, year, short.2 (by decide) (by decide) year rfl⟩

end Almanac.Date
