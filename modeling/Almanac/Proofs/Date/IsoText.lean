import Almanac.Proofs.Date.Checked
import Almanac.Proofs.Date.Representable
import Almanac.Proofs.Error
import Almanac.Proofs.Text.Numeral
import Almanac.Proofs.Text.Tidy
import Almanac.Stored

set_option autoImplicit false

/-!
# The text of a date

A date in the checked range is read back from its text, and the text of any other date is read as no
date at all: a year below zero begins with a dash, where a text is cut, and other years are out of
range. Blanks around a text change nothing.
-/

namespace Almanac.Date

open Text (Blanks Numeral isBlank padded padStart decimal trim readNat?)

variable {s t u before after : List Char} {year month day bound n : Nat} {d e : Date}

theorem cutAtDash?_append (bare : '-' ∉ s) (t : List Char) :
    cutAtDash? (s ++ '-' :: t) = some (s, t) := by
  have inside : ∀ c ∈ s, (c != '-') = true := by
    intro c member
    rw [bne_iff_ne]
    rintro rfl
    exact bare member
  rw [cutAtDash?, List.dropWhile_append_of_pos inside, List.takeWhile_append_of_pos inside]
  exact congrArg (fun taken => some (taken, t)) (List.append_nil s)

theorem bare_dashed (first : ∀ c ∈ s, isBlank c = false) (second : ∀ c ∈ t, isBlank c = false) :
    ∀ c ∈ s ++ '-' :: t, isBlank c = false :=
  List.forall_mem_append.mpr ⟨first, List.forall_mem_cons.mpr ⟨by decide, second⟩⟩

theorem bare_of_numeral (number : Numeral n s) : ∀ c ∈ s, isBlank c = false :=
  fun c member => Text.not_isBlank_of_isDecimal (number.isDecimal c member)

theorem no_dash_of_numeral (number : Numeral n s) : '-' ∉ s :=
  fun member => absurd (number.digits '-' member) (by decide)

theorem padded_append_injective {width : Nat} {i j : Int}
    (same : padded width i ++ '-' :: s = padded width j ++ '-' :: t) : i = j ∧ s = t := by
  have cut {m n width : Nat} {s t : List Char}
      (same : padStart width (decimal m) ++ '-' :: s = padStart width (decimal n) ++ '-' :: t) :
      m = n ∧ s = t := by
    have first := (Text.numeral_decimal m).padStart width
    have second := (Text.numeral_decimal n).padStart width
    have parts := congrArg cutAtDash? same
    rw [cutAtDash?_append (no_dash_of_numeral first), cutAtDash?_append (no_dash_of_numeral second),
      Option.some.injEq, Prod.mk.injEq] at parts
    exact ⟨by rw [← first.value, ← second.value, parts.1], parts.2⟩
  have unlike {n width : Nat} {s t : List Char} :
      '-' :: s ≠ padStart width (decimal n) ++ t := by
    have number := (Text.numeral_decimal n).padStart width
    intro same
    obtain ⟨c, rest, shape⟩ := List.exists_cons_of_ne_nil number.nonempty
    rw [shape] at same
    obtain ⟨rfl, -⟩ := List.cons.inj same
    exact number.ne_head (by decide) (congrArg List.head? shape)
  unfold padded at same
  split at same
  next below =>
    split at same
    next below' =>
      obtain ⟨numbers, rests⟩ := cut (List.cons.inj same).2
      exact ⟨by omega, rests⟩
    next => exact absurd same unlike
  next =>
    split at same
    next => exact absurd same.symm unlike
    next =>
      obtain ⟨numbers, rests⟩ := cut same
      exact ⟨by omega, rests⟩

def separated (first second : Char) (d : Date) : List Char :=
  padded 4 d.year ++ first :: (padded 2 d.month ++ second :: padded 2 d.day)

theorem chars_eq (d : Date) : d.chars = d.separated '-' '-' := by
  simp only [chars, separated, List.append_assoc, List.cons_append]

theorem chars_injective (same : d.chars = e.chars) : d = e := by
  have closed := congrArg (· ++ ['-']) same
  simp only [chars, List.append_assoc, List.cons_append] at closed
  obtain ⟨years, rest⟩ := padded_append_injective closed
  obtain ⟨months, rest⟩ := padded_append_injective rest
  obtain ⟨days, -⟩ := padded_append_injective rest
  rw [← d.on_parts, ← e.on_parts, years, Int.ofNat.inj months, Int.ofNat.inj days]

theorem text_injective (same : d.text = e.text) : d = e :=
  chars_injective (String.ofList_injective same)

theorem isoFields?_surrounded (left : Blanks before)
    (right : Blanks after) (s : List Char) :
    isoFields? (before ++ (s ++ after)) = isoFields? s := by
  rw [isoFields?, Text.trim_surrounded left right, isoFields?]

theorem isoFields?_of_numerals (years : Numeral year s) (months : Numeral month t)
    (days : Numeral day u) (fits : year ≤ 2147483647 ∧ month ≤ 255 ∧ day ≤ 255) :
    isoFields? (s ++ '-' :: (t ++ '-' :: u)) = some (year, month, day) := by
  have bare := bare_dashed (bare_of_numeral years)
    (bare_dashed (bare_of_numeral months) (bare_of_numeral days))
  have first := cutAtDash?_append (no_dash_of_numeral years) (t ++ '-' :: u)
  have second := cutAtDash?_append (no_dash_of_numeral months) u
  rw [isoFields?, Text.trim_eq_self bare, first]
  simp only [Option.bind_eq_bind, Option.bind_some, second, years.readNat? fits.1,
    months.readNat? fits.2.1, days.readNat? fits.2.2]
  rfl

theorem isoFields?_of_dash (bare : ∀ c ∈ s, isBlank c = false) : isoFields? ('-' :: s) = none := by
  have whole : trim ('-' :: s) = '-' :: s :=
    Text.trim_eq_self (List.forall_mem_cons.mpr ⟨by decide, bare⟩)
  have first : cutAtDash? ('-' :: s) = some ([], s) :=
    cutAtDash?_append List.not_mem_nil s
  -- Nothing stands before the first dash, and nothing is no number.
  rw [isoFields?, whole, first]
  cases cut : cutAtDash? s with
  | none => simp only [Option.bind_eq_bind, Option.bind_some, cut, Option.bind_none]
  | some parts =>
    simp only [Option.bind_eq_bind, Option.bind_some, cut]
    rfl

theorem ofYearMonthDay_error {year : Int} {error : Error}
    (h : ofYearMonthDay year month day = .error error) : error.kind = .invalidDate := by
  unfold ofYearMonthDay at h
  split at h
  next => cases h; rfl
  next =>
    split at h
    next => cases h; rfl
    next =>
      split at h
      next => cases h; rfl
      next => cases h

theorem inRange_of_readIso (h : readIso s = .ok d) : d.InRange := by
  unfold readIso at h
  split at h
  next => exact (ofYearMonthDay_eq_ok.mp h).1
  next => cases h

theorem readIso_surrounded (left : Blanks before)
    (right : Blanks after) (s : List Char) :
    Agrees (readIso (before ++ (s ++ after))) (readIso s) := by
  rw [readIso, readIso, isoFields?_surrounded left right]
  split
  next => exact .refl _
  next => exact .error rfl

theorem isoFields?_chars (inYears : d.Representable) :
    isoFields? d.chars = if d.year < 0 then none else some (d.year.toNat, d.month, d.day) := by
  have known := inYears.year_bounds
  have months := d.month_bounds
  have days := d.day_le
  have month := Text.numeral_padded 2 d.month
  have day := Text.numeral_padded 2 d.day
  split
  next below =>
    have year := (Text.numeral_decimal d.year.natAbs).padStart 3
    have bare := bare_dashed (bare_of_numeral year)
      (bare_dashed (bare_of_numeral month) (bare_of_numeral day))
    rw [chars_eq, separated, padded, if_pos below]
    exact isoFields?_of_dash bare
  next reached =>
    obtain ⟨y, same⟩ := Int.eq_ofNat_of_zero_le (Int.not_lt.mp reached)
    have year := Text.numeral_padded 4 y
    rw [chars_eq, separated, same, isoFields?_of_numerals year month day (by omega), Int.toNat_natCast]

theorem readIso_chars (inYears : d.Representable) (left : Blanks before)
    (right : Blanks after) :
    readIso (before ++ (d.chars ++ after)) =
      if d.InRange then .ok d
      else if d.year < 0 then .error (.invalidDate (.isoText (before ++ (d.chars ++ after))))
      else .error (.invalidDate (.year d.year)) := by
  rw [readIso, isoFields?_surrounded left right, isoFields?_chars inYears]
  by_cases below : d.year < 0
  next =>
    have beyond : ¬d.InRange := by
      rw [inRange_iff]
      omega
    rw [if_pos below, if_neg beyond, if_pos below]
  next =>
    have year : (d.year.toNat : Int) = d.year := Int.toNat_of_nonneg (Int.not_lt.mp below)
    rw [if_neg below, if_neg below]
    dsimp only
    rw [year]
    split
    next inRange => exact ofYearMonthDay_eq_ok.mpr ⟨inRange, rfl, rfl, rfl⟩
    next beyond =>
      rw [inRange_iff] at beyond
      exact if_pos beyond

end Almanac.Date

namespace Almanac.Stored

open Text (Blanks)

variable {before after : List Char} {v : Stored} {d : Date}

def ofDate (d : Date) : Stored :=
  .text d.text

theorem restore?_date (v : Stored) : restore? .date v = (date? v).map ofDate :=
  rfl

theorem date?_text (s : String) : date? (.text s) = (Date.readIso s.toList).toOption :=
  rfl

theorem date?_surrounded (left : Blanks before) (right : Blanks after) (s : List Char) :
    date? (.text (String.ofList (before ++ (s ++ after)))) = date? (.text (String.ofList s)) := by
  rw [date?_text, date?_text, String.toList_ofList, String.toList_ofList]
  exact (Date.readIso_surrounded left right s).toOption_eq

theorem inRange_of_date? (found : date? v = some d) : d.InRange := by
  unfold date? at found
  split at found
  next => exact Date.inRange_of_readIso (toOption_eq_some_iff.mp found)
  next => cases found

end Almanac.Stored

namespace Almanac.Date

open Text (Blanks padded padStart decimal)

/-- Dates are kept by a way to write and to read them: what is written of a date is read as this date
in the checked range and as none beyond it, no two dates are written alike, and what is read is read
again once it is written. -/
structure Kept {α : Type} (write : Date → α) (read : α → Option Date) : Prop where
  read_write : ∀ d, d.Representable → read (write d) = if d.InRange then some d else none
  injective : ∀ d e, d.Representable → e.Representable → write d = write e → d = e
  read_again : ∀ a d, read a = some d → read (write d) = some d

theorem kept_of_inRange {α : Type} {write : Date → α} {read : α → Option Date}
    (read_write : ∀ d, d.Representable → read (write d) = if d.InRange then some d else none)
    (injective : ∀ d e, write d = write e → d = e)
    (inRange : ∀ a d, read a = some d → d.InRange) : Kept write read where
  read_write := read_write
  injective d e _ _ := injective d e
  read_again a d found := by
    rw [read_write d (inRange a d found).representable, if_pos (inRange a d found)]

theorem toOption_readIso_text {d : Date} (inYears : d.Representable) :
    (readIso d.text.toList).toOption = if d.InRange then some d else none := by
  have nothing : Blanks [] := List.forall_mem_nil _
  have read := readIso_chars inYears nothing nothing
  rw [List.nil_append, List.append_nil] at read
  rw [text, String.toList_ofList, read]
  split
  next => rfl
  next => split <;> rfl

theorem text_kept : Kept text fun t => (readIso t.toList).toOption :=
  kept_of_inRange (fun _ => toOption_readIso_text) (fun _ _ => text_injective)
    fun _ _ found => inRange_of_readIso (toOption_eq_some_iff.mp found)

theorem stored_kept : Kept Stored.ofDate Stored.date? :=
  kept_of_inRange (fun _ => toOption_readIso_text)
    (fun _ _ same => text_injective (Stored.text.inj same)) fun _ _ => Stored.inRange_of_date?

theorem restore?_again {v w : Stored} (restored : Stored.restore? .date v = some w) :
    Stored.restore? .date w = some w := by
  rw [Stored.restore?_date] at restored
  obtain ⟨d, found, rfl⟩ := Option.map_eq_some_iff.mp restored
  rw [Stored.restore?_date, stored_kept.read_again v d found, Option.map_some]

/-- Dates are kept by their texts and in documents, and a date that is restored from a document is
restored as it stands. A text with blanks around it is read as the text alone, and the text of a date
beyond the checked range is an invalid date. -/
theorem iso_text_round_trip :
    Kept text (fun t => (readIso t.toList).toOption) ∧
    Kept Stored.ofDate Stored.date? ∧
    (∀ v w, Stored.restore? .date v = some w → Stored.restore? .date w = some w) ∧
    (∀ (d : Date) (before after : List Char), d.Representable → Blanks before → Blanks after →
      readIso (before ++ (d.text.toList ++ after)) =
        if d.InRange then .ok d
        else if d.year < 0 then
          .error (.invalidDate (.isoText (before ++ (d.text.toList ++ after))))
        else .error (.invalidDate (.year d.year))) ∧
    ∀ s before after : List Char, Blanks before → Blanks after →
      Agrees (readIso (before ++ (s ++ after))) (readIso s) ∧
      Stored.date? (.text (String.ofList (before ++ (s ++ after)))) =
        Stored.date? (.text (String.ofList s)) := by
  refine ⟨text_kept, stored_kept, fun _ _ => restore?_again, ?_, ?_⟩
  next =>
    intro d before after inYears left right
    rw [text, String.toList_ofList]
    exact readIso_chars inYears left right
  next =>
    intro s before after left right
    exact ⟨readIso_surrounded left right s, Stored.date?_surrounded left right s⟩

theorem iso_text_round_trip_below_zero :
    (on (-5) 3 1).Representable ∧ Blanks ['\t'] ∧
      readIso "\t-005-03-01\t".toList =
        .error (.invalidDate (.isoText "\t-005-03-01\t".toList)) ∧
      Stored.restore? .date (.text "2024-2-9") = some (.text "2024-02-09") ∧
      Stored.restore? .date (.text "2024-02-09") = some (.text "2024-02-09") := by
  have inYears : (on (-5) 3 1).Representable := by decide
  have tab : Blanks ['\t'] := List.all_eq_true.mp rfl
  have parts : (on (-5) 3 1).civil = ⟨-5, 3, 1⟩ := rfl
  have shown : (on (-5) 3 1).text.toList = "-005-03-01".toList := by
    simp [text, chars, year, month, day, parts, padded, padStart, decimal]
  have found : Stored.date? (.text "2024-2-9") = some (on 2024 2 9) := rfl
  have parts' : (on 2024 2 9).civil = ⟨2024, 2, 9⟩ := rfl
  have written : (on 2024 2 9).text = "2024-02-09" := by
    rw [← String.toList_inj]
    simp [text, chars, year, month, day, parts', padded, padStart, decimal]
  have restored : Stored.restore? .date (.text "2024-2-9") = some (.text "2024-02-09") := by
    rw [Stored.restore?_date, found, Option.map_some, Stored.ofDate, written]
  have read := iso_text_round_trip.2.2.2.1 (on (-5) 3 1) ['\t'] ['\t'] inYears tab tab
  rw [shown] at read
  exact ⟨inYears, tab, read, restored, iso_text_round_trip.2.2.1 _ _ restored⟩

end Almanac.Date
