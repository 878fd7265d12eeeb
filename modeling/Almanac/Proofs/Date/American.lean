import Almanac.Date.Reader
import Almanac.Proofs.Date.IsoText
import Almanac.Proofs.Error
import Almanac.Proofs.Period.Pieces
import Almanac.Proofs.Text.Blank
import Almanac.Proofs.Text.Script

set_option autoImplicit false

/-!
# Dates in the American order

What the pattern of a month-first date takes, and what is made of it: digits of any script are taken,
and a number counts only when all its digits are of ASCII. A month or a day in other digits is no
date; a year in other digits is the year 2000.
-/

namespace Almanac.Date

open Text
open Text.Pattern
open Form (IsRun IsSeparator)

namespace American

variable {s t u month day year : List Char} {f : Fields Part} {low high n : Nat} {name : Part}

def Around (part s : List Char) : Prop :=
  ∃ before after, Blanks before ∧ Blanks after ∧ s = before ++ (part ++ after)

inductive Spaced (month day year : List Char) : List Char → Prop
  | intro {m d y : List Char} {first second : Char} (hm : Around month m)
      (hfirst : IsSeparator first) (hd : Around day d) (hsecond : IsSeparator second)
      (hy : Around year y) : Spaced month day year (m ++ first :: (d ++ second :: y))

def IsYear (s : List Char) : Prop :=
  IsRun 2 2 s ∨ IsRun 4 4 s

structure Parted (month day year s : List Char) : Prop where
  spaced : Spaced month day year s
  isMonth : IsRun 1 2 month
  isDay : IsRun 1 2 day
  isYear : IsYear year

theorem IsYear.decimal (h : IsYear s) : ∀ c ∈ s, isDecimal c = true := by
  rcases h with short | long
  next => exact short.decimal
  next => exact long.decimal

theorem around (part : List Char) {before after : List Char} (left : Blanks before)
    (right : Blanks after) : Around part (before ++ (part ++ after)) :=
  ⟨before, after, left, right, rfl⟩

theorem Spaced.closed {first second : Char} (hfirst : IsSeparator first)
    (hsecond : IsSeparator second) :
    Spaced month day year (month ++ first :: (day ++ second :: year)) := by
  have alone (part : List Char) : Around part part :=
    ⟨[], [], List.forall_mem_nil _, List.forall_mem_nil _, (List.append_nil part).symm⟩
  exact .intro (alone month) hfirst (alone day) hsecond (alone year)

theorem matches_blanks : Matches blanks s f ↔ Blanks s ∧ f = [] :=
  matches_many

theorem matches_separator :
    Matches separator s f ↔ ∃ before c after, Blanks before ∧ IsSeparator c ∧ Blanks after ∧
      s = before ++ c :: after ∧ f = [] := by
  change Matches (.seq blanks (.seq (.one (.among ['-', '/'])) blanks)) s f ↔ _
  rw [matches_seq]
  simp only [matches_one_seq, matches_blanks, Form.has_separator]
  constructor
  next =>
    rintro ⟨before, _, _, _, ⟨left, rfl⟩, ⟨c, after, isSeparator, ⟨right, rfl⟩, rfl⟩, rfl, rfl⟩
    exact ⟨before, c, after, left, isSeparator, right, rfl, rfl⟩
  next =>
    rintro ⟨before, c, after, left, isSeparator, right, rfl, rfl⟩
    exact ⟨before, [], _, [], ⟨left, rfl⟩, ⟨c, after, isSeparator, ⟨right, rfl⟩, rfl⟩, rfl, rfl⟩

theorem matches_digits (h : low ≤ high) :
    Matches (digits low high) s f ↔ IsRun low high s ∧ f = [] :=
  Form.matches_decimals h

theorem matches_year :
    Matches (.seq (opt (digits 2 2)) (digits 2 2)) s f ↔ IsYear s ∧ f = [] := by
  simp only [matches_seq, matches_opt, matches_digits (Nat.le_refl 2)]
  constructor
  next =>
    rintro ⟨s₁, f₁, s₂, f₂, ⟨first, rfl⟩ | ⟨rfl, rfl⟩, ⟨second, rfl⟩, rfl, rfl⟩
    next =>
      refine ⟨.inr ⟨List.forall_mem_append.mpr ⟨first.decimal, second.decimal⟩, ?_⟩, rfl⟩
      have lengths := And.intro first.length second.length
      rw [List.length_append]
      omega
    next => exact ⟨.inl second, rfl⟩
  next =>
    rintro ⟨short | long, rfl⟩
    next => exact ⟨[], [], s, [], .inr ⟨rfl, rfl⟩, ⟨short, rfl⟩, rfl, rfl⟩
    next =>
      have length := long.length
      refine ⟨s.take 2, [], s.drop 2, [], .inl ⟨⟨?_, ?_⟩, rfl⟩, ⟨⟨?_, ?_⟩, rfl⟩,
        (List.take_append_drop 2 s).symm, rfl⟩
      next => exact fun c member => long.decimal c (List.mem_of_mem_take member)
      next => rw [List.length_take]; omega
      next => exact fun c member => long.decimal c (List.mem_of_mem_drop member)
      next => rw [List.length_drop]; omega

theorem matches_numbered {q : Pattern Part} :
    Matches (.seq (.field name (digits 1 2)) (.seq separator q)) s f ↔
      ∃ run before c after rest g, IsRun 1 2 run ∧ Blanks before ∧ IsSeparator c ∧ Blanks after ∧
        Matches q rest g ∧ s = run ++ (before ++ c :: (after ++ rest)) ∧ f = (name, run) :: g := by
  rw [matches_seq]
  simp only [matches_field, matches_digits (show 1 ≤ 2 by decide)]
  constructor
  next =>
    rintro ⟨run, _, _, g, ⟨_, ⟨isRun, rfl⟩, rfl⟩, m, rfl, rfl⟩
    obtain ⟨_, _, rest, g, first, second, rfl, rfl⟩ := matches_seq.mp m
    obtain ⟨before, c, after, left, isSeparator, right, rfl, rfl⟩ := matches_separator.mp first
    refine ⟨run, before, c, after, rest, g, isRun, left, isSeparator, right, second, ?_, rfl⟩
    simp only [List.append_assoc, List.cons_append]
  next =>
    rintro ⟨run, before, c, after, rest, g, isRun, left, isSeparator, right, m, rfl, rfl⟩
    have first := matches_separator.mpr ⟨before, c, after, left, isSeparator, right, rfl, rfl⟩
    refine ⟨run, _, _, _, ⟨_, ⟨isRun, rfl⟩, rfl⟩, first.seq m, ?_, rfl⟩
    simp only [List.append_assoc, List.cons_append]

theorem matches_lastYear :
    Matches (.seq (.field .year (.seq (opt (digits 2 2)) (digits 2 2))) blanks) s f ↔
      ∃ year gap, IsYear year ∧ Blanks gap ∧ s = year ++ gap ∧ f = [(.year, year)] := by
  rw [matches_seq]
  simp only [matches_field, matches_year, matches_blanks]
  constructor
  next =>
    rintro ⟨year, _, gap, _, ⟨_, ⟨isYear, rfl⟩, rfl⟩, ⟨blank, rfl⟩, rfl, rfl⟩
    exact ⟨year, gap, isYear, blank, rfl, rfl⟩
  next =>
    rintro ⟨year, gap, isYear, blank, rfl, rfl⟩
    exact ⟨year, _, gap, [], ⟨[], ⟨isYear, rfl⟩, rfl⟩, ⟨blank, rfl⟩, rfl, rfl⟩

theorem matches_pattern :
    Matches pattern s f ↔ ∃ month day year, Parted month day year s ∧
      f = [(.month, month), (.day, day), (.year, year)] := by
  change Matches (.seq blanks (.seq (.field .month (digits 1 2)) (.seq separator
    (.seq (.field .day (digits 1 2)) (.seq separator
      (.seq (.field .year (.seq (opt (digits 2 2)) (digits 2 2))) blanks)))))) s f ↔ _
  rw [matches_seq]
  simp only [matches_blanks, matches_numbered, matches_lastYear]
  constructor
  next =>
    rintro ⟨a, _, _, _, ⟨ha, rfl⟩, ⟨month, b, _, c, _, _, isMonth, hb, isFirst, hc,
      ⟨day, d, _, e, _, _, isDay, hd, isSecond, he, ⟨year, g, isYear, hg, rfl, rfl⟩, rfl, rfl⟩,
      rfl, rfl⟩, rfl, rfl⟩
    have spaced := Spaced.intro (around month ha hb) isFirst (around day hc hd) isSecond
      (around year he hg)
    refine ⟨month, day, year, ⟨?_, isMonth, isDay, isYear⟩, rfl⟩
    simpa only [List.append_assoc, List.cons_append] using spaced
  next =>
    rintro ⟨month, day, year, ⟨⟨⟨a, b, ha, hb, rfl⟩, isFirst, ⟨c, d, hc, hd, rfl⟩, isSecond,
      ⟨e, g, he, hg, rfl⟩⟩, isMonth, isDay, isYear⟩, rfl⟩
    -- The blanks on both sides of a separator are taken with it.
    refine ⟨a, [], _, _, ⟨ha, rfl⟩, ⟨month, b, _, c, _, _, isMonth, hb, isFirst, hc,
      ⟨day, d, _, e, _, _, isDay, hd, isSecond, he, ⟨year, g, isYear, hg, rfl, rfl⟩, rfl, rfl⟩,
      rfl, rfl⟩, ?_, rfl⟩
    simp only [List.append_assoc]

theorem separator_not_blank {c : Char} (h : IsSeparator c) : isBlank c = false := by
  rcases h with rfl | rfl
  next => rfl
  next => rfl

theorem Around.not_isSeparator (h : Around t s) (digits : ∀ c ∈ t, isDecimal c = true) :
    ∀ c ∈ s, ¬IsSeparator c := by
  obtain ⟨before, after, left, right, rfl⟩ := h
  have notBlank {c : Char} (blank : isBlank c = true) : ¬IsSeparator c := fun isSeparator =>
    Bool.false_ne_true ((separator_not_blank isSeparator).symm.trans blank)
  have notDigit {c : Char} (digit : isDecimal c = true) : ¬IsSeparator c := fun isSeparator =>
    Bool.false_ne_true ((Form.not_isDecimal_of_isSeparator isSeparator).symm.trans digit)
  simp only [List.forall_mem_append]
  exact ⟨fun c member => notBlank (left c member), fun c member => notDigit (digits c member),
    fun c member => notBlank (right c member)⟩

theorem Around.filter_isDecimal (h : Around t s) (digits : ∀ c ∈ t, isDecimal c = true) :
    s.filter isDecimal = t := by
  obtain ⟨before, after, left, right, rfl⟩ := h
  have none {gap : List Char} (blank : Blanks gap) : gap.filter isDecimal = [] := by
    rw [List.filter_eq_nil_iff]
    intro c member decimal
    exact Bool.false_ne_true ((not_isBlank_of_isDecimal decimal).symm.trans (blank c member))
  rw [List.filter_append, List.filter_append, none left, none right,
    List.filter_eq_self.mpr digits, List.nil_append, List.append_nil]

theorem eq_of_first_separator {c d : Char} {s' t' : List Char} (bare : ∀ x ∈ s, ¬IsSeparator x)
    (bare' : ∀ x ∈ s', ¬IsSeparator x) (hc : IsSeparator c) (hd : IsSeparator d)
    (same : s ++ c :: t = s' ++ d :: t') : s = s' ∧ t = t' := by
  obtain ⟨u, rfl, rest⟩ | ⟨u, rfl, rest⟩ := List.append_eq_append_iff.mp same
  next =>
    cases u with
    | nil => exact ⟨(List.append_nil s).symm, (List.cons.inj rest).2⟩
    | cons x u =>
      obtain ⟨rfl, -⟩ := List.cons.inj rest
      exact absurd hc (bare' _ (List.mem_append_right s List.mem_cons_self))
  next =>
    cases u with
    | nil => exact ⟨List.append_nil s', (List.cons.inj rest).2.symm⟩
    | cons x u =>
      obtain ⟨rfl, -⟩ := List.cons.inj rest
      exact absurd hd (bare _ (List.mem_append_right s' List.mem_cons_self))

theorem Parted.unique {month' day' year' : List Char} (first : Parted month day year s)
    (second : Parted month' day' year' s) : month = month' ∧ day = day' ∧ year = year' := by
  obtain ⟨spaced, isMonth, isDay, isYear⟩ := first
  obtain ⟨spaced', isMonth', isDay', isYear'⟩ := second
  cases spaced with
  | @intro m d y c e hm hc hd he hy =>
    generalize whole : m ++ c :: (d ++ e :: y) = s at spaced'
    cases spaced' with
    | @intro m' d' y' c' e' hm' hc' hd' he' hy' =>
      obtain ⟨rfl, rest⟩ := eq_of_first_separator (hm.not_isSeparator isMonth.decimal)
        (hm'.not_isSeparator isMonth'.decimal) hc hc' whole
      obtain ⟨rfl, rfl⟩ := eq_of_first_separator (hd.not_isSeparator isDay.decimal)
        (hd'.not_isSeparator isDay'.decimal) he he' rest
      refine ⟨?_, ?_, ?_⟩
      next => rw [← hm.filter_isDecimal isMonth.decimal, hm'.filter_isDecimal isMonth'.decimal]
      next => rw [← hd.filter_isDecimal isDay.decimal, hd'.filter_isDecimal isDay'.decimal]
      next => rw [← hy.filter_isDecimal isYear.decimal, hy'.filter_isDecimal isYear'.decimal]

theorem determined_pattern : pattern.Determined := by
  intro s f g first second
  obtain ⟨month, day, year, parted, rfl⟩ := matches_pattern.mp first
  obtain ⟨month', day', year', parted', rfl⟩ := matches_pattern.mp second
  obtain ⟨rfl, rfl, rfl⟩ := parted.unique parted'
  rfl

theorem match?_eq_some_iff_parted :
    pattern.match? s = some f ↔ ∃ month day year, Parted month day year s ∧
      f = [(.month, month), (.day, day), (.year, year)] := by
  rw [match?_eq_some_iff determined_pattern, matches_pattern]

def counted (s : List Char) : Nat :=
  (readDigits? s).getD 0

def inCentury (n : Nat) : Int :=
  if n < 100 then n + 2000 else n

theorem readAmerican_of_parted (parted : Parted month day year s) :
    readAmerican s = ofYearMonthDay (inCentury (counted year)) (counted month) (counted day) := by
  have matched := match?_eq_some_iff_parted.mpr ⟨month, day, year, parted, rfl⟩
  rw [readAmerican, matched]
  rfl

/-- A text of a month, a day and a year, and the numbers that their digits denote. -/
structure Denotes (month day year s : List Char) (m k y : Nat) : Prop extends
    Parted month day year s where
  month : unsigned? month = some m
  day : unsigned? day = some k
  year : unsigned? year = some y

theorem nonempty_of_isRun (run : IsRun low high s) (positive : 0 < low) : s ≠ [] :=
  List.length_pos_iff.mp (Nat.lt_of_lt_of_le positive run.length.1)

theorem IsYear.nonempty (h : IsYear s) : s ≠ [] := by
  rcases h with short | long
  next => exact nonempty_of_isRun short (by decide)
  next => exact nonempty_of_isRun long (by decide)

theorem IsYear.length_le (h : IsYear s) : s.length ≤ 4 := by
  rcases h with short | long
  next => exact Nat.le_trans short.length.2 (by decide)
  next => exact long.length.2

theorem Parted.exists_denotes (parted : Parted month day year s) :
    ∃ m k y, Denotes month day year s m k y := by
  have isMonth := parted.isMonth
  have isDay := parted.isDay
  have isYear := parted.isYear
  obtain ⟨m, hm, -⟩ := exists_unsigned? (nonempty_of_isRun isMonth (by decide)) isMonth.decimal
  obtain ⟨k, hk, -⟩ := exists_unsigned? (nonempty_of_isRun isDay (by decide)) isDay.decimal
  obtain ⟨y, hy, -⟩ := exists_unsigned? isYear.nonempty isYear.decimal
  exact ⟨m, k, y, parted, hm, hk, hy⟩

section

variable {m k y : Nat} {d : Date}

theorem Denotes.unique {month' day' year' : List Char} {m' k' y' : Nat}
    (first : Denotes month day year s m k y) (second : Denotes month' day' year' s m' k' y') :
    year = year' ∧ y = y' := by
  obtain ⟨-, -, rfl⟩ := first.toParted.unique second.toParted
  exact ⟨rfl, Option.some.inj (first.year.symm.trans second.year)⟩

theorem Denotes.year_lt (h : Denotes month day year s m k y) : y < 10000 := by
  have isYear := h.isYear
  obtain ⟨n, value, bound⟩ := exists_unsigned? isYear.nonempty isYear.decimal
  have power : 10 ^ year.length ≤ 10 ^ 4 := Nat.pow_le_pow_right (by decide) isYear.length_le
  obtain rfl := Option.some.inj (h.year.symm.trans value)
  exact Nat.lt_of_lt_of_le bound power

theorem counted_eq (denotes : unsigned? s = some n) :
    counted s = if s.all Char.isDigit = true then n else 0 := by
  have nonempty : s ≠ [] := by
    rintro rfl
    cases denotes
  unfold counted
  split
  next ascii =>
    have read : readDigits? s = some (positional 0 s) := if_pos ⟨nonempty, ascii⟩
    rw [read, Option.getD_some]
    exact Option.some.inj ((unsigned?_of_readDigits? read).symm.trans denotes)
  next foreign =>
    have unread : readDigits? s = none := if_neg fun ascii => foreign ascii.2
    rw [unread, Option.getD_none]

theorem readAmerican_of_denotes (h : Denotes month day year s m k y) :
    readAmerican s =
      ofYearMonthDay (if year.all Char.isDigit = true then inCentury y else 2000)
        (if month.all Char.isDigit = true then m else 0)
        (if day.all Char.isDigit = true then k else 0) := by
  have century : inCentury (if year.all Char.isDigit = true then y else 0) =
      if year.all Char.isDigit = true then inCentury y else 2000 := by
    split <;> rfl
  rw [readAmerican_of_parted h.toParted, counted_eq h.month, counted_eq h.day, counted_eq h.year,
    century]

theorem exists_denotes_of_readAmerican (read : readAmerican s = .ok d) :
    ∃ month day year m k y, Denotes month day year s m k y := by
  unfold readAmerican at read
  split at read
  next f matched =>
    obtain ⟨month, day, year, parted, -⟩ := match?_eq_some_iff_parted.mp matched
    obtain ⟨m, k, y, denotes⟩ := parted.exists_denotes
    exact ⟨month, day, year, m, k, y, denotes⟩
  next => cases read

-- No month and no day is zero, so these have to be in ASCII.
theorem readAmerican_eq_ok_iff :
    readAmerican s = .ok d ↔ ∃ month day year y, Denotes month day year s d.month d.day y ∧
      month.all Char.isDigit = true ∧ day.all Char.isDigit = true ∧
        d.year = if year.all Char.isDigit = true then inCentury y else 2000 := by
  constructor
  next =>
    intro read
    obtain ⟨month, day, year, m, k, y, denotes⟩ := exists_denotes_of_readAmerican read
    rw [readAmerican_of_denotes denotes] at read
    obtain ⟨-, sameYear, sameMonth, sameDay⟩ := ofYearMonthDay_eq_ok.mp read
    have months := d.month_bounds
    have days := d.day_bounds
    split at sameMonth
    next asciiMonth =>
      split at sameDay
      next asciiDay =>
        rw [← sameMonth, ← sameDay] at denotes
        exact ⟨month, day, year, y, denotes, asciiMonth, asciiDay, sameYear⟩
      next => omega
    next => omega
  next =>
    rintro ⟨month, day, year, y, denotes, asciiMonth, asciiDay, sameYear⟩
    have bound := denotes.year_lt
    rw [readAmerican_of_denotes denotes, if_pos asciiMonth, if_pos asciiDay, ← sameYear]
    refine ofYearMonthDay_eq_ok.mpr ⟨?_, rfl, rfl, rfl⟩
    rw [inRange_iff, sameYear]
    unfold inCentury
    split <;> omega

theorem readAmerican_error {error : Error} (read : readAmerican s = .error error) :
    error.kind = .invalidDate := by
  unfold readAmerican at read
  split at read
  next => exact ofYearMonthDay_error read
  next => cases read; rfl

/-- A text names a date when its digits, of any script, denote the month, the day and the year. -/
def Names (s : List Char) (d : Date) : Prop :=
  ∃ month day year y, Denotes month day year s d.month d.day y ∧ d.year = inCentury y

theorem inCentury_eq_2000 (n : Nat) : inCentury n = 2000 ↔ n = 0 ∨ n = 2000 := by
  unfold inCentury
  split <;> omega

theorem names_iff (read : readAmerican s = .ok d) (denotes : Denotes month day year s m k y) :
    Names s d ↔ year.all Char.isDigit = true ∨ y = 0 ∨ y = 2000 := by
  obtain ⟨month', day', year', y', denotes', -, -, sameYear⟩ := readAmerican_eq_ok_iff.mp read
  obtain ⟨rfl, rfl⟩ := denotes.unique denotes'
  constructor
  next =>
    rintro ⟨_, _, _, _, other, named⟩
    obtain ⟨rfl, rfl⟩ := denotes'.unique other
    by_cases ascii : year.all Char.isDigit = true
    next => exact .inl ascii
    next =>
      rw [if_neg ascii, named, inCentury_eq_2000] at sameYear
      exact .inr sameYear
  next =>
    intro known
    refine ⟨month', day', year, y, denotes', ?_⟩
    split at sameYear
    next => exact sameYear
    next foreign =>
      rw [sameYear, (inCentury_eq_2000 y).mpr (known.resolve_left foreign)]

end

end American

open American in
/-- A text is read as a date when its month and its day are those of the date, in digits of ASCII,
and its year is that of the date or has digits beyond ASCII and the date lies in the year 2000. Then
the text names the date if its year is in ASCII or comes to 2000 all the same. Every other text is an
invalid date. -/
theorem readAmerican_faithful_iff (s : List Char) :
    (∀ d, readAmerican s = .ok d ↔
      ∃ month day year y, Denotes month day year s d.month d.day y ∧
        month.all Char.isDigit = true ∧ day.all Char.isDigit = true ∧
          d.year = if year.all Char.isDigit = true then inCentury y else 2000) ∧
    (∀ d month day year m k y, readAmerican s = .ok d → Denotes month day year s m k y →
      (Names s d ↔ year.all Char.isDigit = true ∨ y = 0 ∨ y = 2000)) ∧
    ∀ error, readAmerican s = .error error → error.kind = .invalidDate :=
  ⟨fun _ => readAmerican_eq_ok_iff, fun _ _ _ _ _ _ _ => names_iff, fun _ => readAmerican_error⟩

open American in
theorem readAmerican_faithful_iff_leap_day :
    readAmerican " 2 - 29/24".toList = .ok (on 2024 2 29) ∧
      Denotes ['2'] ['2', '9'] ['2', '4'] " 2 - 29/24".toList 2 29 24 ∧
      Names " 2 - 29/24".toList (on 2024 2 29) := by
  have read : readAmerican " 2 - 29/24".toList = .ok (on 2024 2 29) := rfl
  have gap : Blanks [' '] := List.all_eq_true.mp rfl
  have nothing : Blanks [] := List.forall_mem_nil _
  have spaced : Spaced ['2'] ['2', '9'] ['2', '4'] " 2 - 29/24".toList :=
    .intro (around _ gap gap) (.inl rfl) (around _ gap nothing) (.inr rfl)
      (around _ nothing nothing)
  have denotes : Denotes ['2'] ['2', '9'] ['2', '4'] " 2 - 29/24".toList 2 29 24 :=
    ⟨⟨spaced, ⟨List.all_eq_true.mp rfl, by decide⟩, ⟨List.all_eq_true.mp rfl, by decide⟩,
      .inl ⟨List.all_eq_true.mp rfl, by decide⟩⟩, rfl, rfl, rfl⟩
  have named := (readAmerican_faithful_iff _).2.1 _ _ _ _ _ _ _ read denotes
  exact ⟨read, denotes, named.mpr (.inl rfl)⟩

open American in
theorem readAmerican_year_beyond_ascii :
    readAmerican "1/1/\u0662\u0664".toList = .ok (on 2000 1 1) ∧
      Denotes ['1'] ['1'] ['\u0662', '\u0664'] "1/1/\u0662\u0664".toList 1 1 24 ∧
      ¬Names "1/1/\u0662\u0664".toList (on 2000 1 1) := by
  have read : readAmerican "1/1/\u0662\u0664".toList = .ok (on 2000 1 1) := rfl
  have spaced : Spaced ['1'] ['1'] ['\u0662', '\u0664'] "1/1/\u0662\u0664".toList :=
    .closed (.inr rfl) (.inr rfl)
  have denotes : Denotes ['1'] ['1'] ['\u0662', '\u0664'] "1/1/\u0662\u0664".toList 1 1 24 :=
    ⟨⟨spaced, ⟨List.all_eq_true.mp rfl, by decide⟩, ⟨List.all_eq_true.mp rfl, by decide⟩,
      .inl ⟨List.all_eq_true.mp rfl, by decide⟩⟩, rfl, rfl, rfl⟩
  refine ⟨read, denotes, fun names => ?_⟩
  rcases (names_iff read denotes).mp names with ascii | other
  next => cases ascii
  next => omega

end Almanac.Date
