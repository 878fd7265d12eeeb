import Almanac.Proofs.Period.Pieces
import Almanac.Proofs.Text.Numeral

set_option autoImplicit false

/-!
# The notation of periods

How each period is written. A year has four digits, other numbers may have zeros in front where
their form has room for them, a dash or a slash stands between numbers, and letters may have either
case.
Every period in the documented ranges has a text.
-/

namespace Almanac

open Text (Numeral lower)
open Form (IsSeparator)

namespace Writing

variable {low high : Nat}

inductive NumberFirst (low high : Nat) : Option Int → List Char → Prop
  | absent : NumberFirst low high none []
  | present {n : Nat} {s : List Char} {c : Char} (number : Numeral n s)
      (places : low ≤ s.length ∧ s.length ≤ high) (separator : IsSeparator c) :
      NumberFirst low high (some n) (s ++ [c])

inductive NumberLast (low high : Nat) : Option Int → List Char → Prop
  | absent : NumberLast low high none []
  | present {n : Nat} {s : List Char} {c : Char} (separator : IsSeparator c)
      (number : Numeral n s) (places : low ≤ s.length ∧ s.length ≤ high) :
      NumberLast low high (some n) (c :: s)

inductive Lettered (letter : Char) (low high n : Nat) : List Char → Prop
  | after {s : List Char} {c : Char} (number : Numeral n s)
      (places : low ≤ s.length ∧ s.length ≤ high) (same : c.toLower = letter) :
      Lettered letter low high n (s ++ [c])
  | before {s : List Char} {c : Char} (same : c.toLower = letter) (number : Numeral n s)
      (places : low ≤ s.length ∧ s.length ≤ high) : Lettered letter low high n (c :: s)

inductive Signed : Int → List Char → Prop
  | plus {n : Nat} {s : List Char} (number : Numeral n s) : Signed n ('+' :: s)
  | minus {n : Nat} {s : List Char} (number : Numeral n s) : Signed (-n) ('-' :: s)

inductive Ordinal : Int → List Char → Prop
  | unsigned {n : Nat} {s : List Char} (number : Numeral n s) : Ordinal n s
  | signed {n : Int} {s : List Char} (number : Signed n s) : Ordinal n s

structure WeekdayWord (w : Weekday) (s : List Char) : Prop where
  letters : ∀ c ∈ s, c.isAlpha = true
  initials : lower (s.take 2) = w.initials

def romans : List (List Char × Nat) :=
  [("i".toList, 1), ("ii".toList, 2), ("iii".toList, 3), ("iv".toList, 4), ("v".toList, 5),
   ("vi".toList, 6)]

def relations : List (List Char × Int) :=
  [("this".toList, 0), ("to".toList, 0), ("last".toList, -1), ("yester".toList, -1),
   ("next".toList, 1)]

def IsLink (s : List Char) : Prop :=
  s = [] ∨ s = ['-'] ∨ s = ['_']

def NamesChunk (chunk : Chunk) (name : List Char) : Prop :=
  name = chunk.name.toList ∨ chunk = .biweek ∧ name = Chunk.fortnight

theorem exists_numberFirst {k : Option Nat} (positive : 0 < high) (h : low ≤ high)
    (fits : ∀ n ∈ k, n < 10 ^ high) : ∃ s, NumberFirst low high (k.map Nat.cast) s := by
  cases k with
  | none => exact ⟨[], .absent⟩
  | some n =>
    obtain ⟨s, number, length⟩ := Text.exists_numeral positive (fits n rfl)
    exact ⟨s ++ ['-'], .present number ⟨by omega, by omega⟩ (.inl rfl)⟩

theorem exists_numberLast {k : Option Nat} (positive : 0 < high) (h : low ≤ high)
    (fits : ∀ n ∈ k, n < 10 ^ high) : ∃ s, NumberLast low high (k.map Nat.cast) s := by
  cases k with
  | none => exact ⟨[], .absent⟩
  | some n =>
    obtain ⟨s, number, length⟩ := Text.exists_numeral positive (fits n rfl)
    exact ⟨'-' :: s, .present (.inl rfl) number ⟨by omega, by omega⟩⟩

theorem exists_lettered {letter : Char} {n : Nat} (positive : 0 < high) (h : low ≤ high)
    (fits : n < 10 ^ high) (lower : letter.toLower = letter) :
    ∃ s, Lettered letter low high n s := by
  obtain ⟨s, number, length⟩ := Text.exists_numeral positive fits
  exact ⟨letter :: s, .before lower number ⟨by omega, by omega⟩⟩

theorem exists_signed (i : Int) : ∃ s, Signed i s := by
  have number := Text.numeral_decimal i.natAbs
  rcases Int.natAbs_eq i with positive | negative
  next =>
    rw [positive]
    exact ⟨_, .plus number⟩
  next =>
    rw [negative]
    exact ⟨_, .minus number⟩

end Writing

namespace Period

open Writing

def KnownYear (year : Option Int) : Prop :=
  ∀ y ∈ year, 0 ≤ y ∧ y ≤ 9999

def KnownMonth (month : Option Nat) : Prop :=
  ∀ m ∈ month, 1 ≤ m ∧ m ≤ 12

/-- The ranges of the parts of a period. The day of a month is any number of two digits. -/
def Documented : Period → Prop
  | .dayOfYear y day => KnownYear y ∧ 1 ≤ day ∧ day ≤ 366
  | .month y m day => KnownYear y ∧ (1 ≤ m ∧ m ≤ 12) ∧ ∀ d ∈ day, d ≤ 99
  | .isoWeek y week day => KnownYear y ∧ (1 ≤ week ∧ week ≤ 53) ∧ ∀ d ∈ day, 1 ≤ d ∧ d ≤ 7
  | .quarter y q => KnownYear y ∧ 1 ≤ q ∧ q ≤ 4
  | .half y h => KnownYear y ∧ 1 ≤ h ∧ h ≤ 2
  | .year y => 0 ≤ y ∧ y ≤ 9999
  | .halfMonth y m _ => KnownYear y ∧ KnownMonth m
  | .weekOfMonth y m week => KnownYear y ∧ KnownMonth m ∧ 1 ≤ week ∧ week ≤ 6
  | .nthWeekday y m nth _ => KnownYear y ∧ KnownMonth m ∧ 1 ≤ nth.natAbs ∧ nth.natAbs ≤ 5
  | .easter y offset => KnownYear y ∧ -2147483648 ≤ offset ∧ offset ≤ 2147483647
  | .relative _ offset => offset = -1 ∨ offset = 0 ∨ offset = 1
  | .forever => True
  | .never => True

-- The texts of a period.
inductive Written : Period → List Char → Prop
  | dayOfYear {y : Option Int} {day : Nat} {s t : List Char} (before : NumberFirst 4 4 y s)
      (number : Numeral day t) (places : t.length = 3) : Written (.dayOfYear y day) (s ++ t)
  | month {y : Option Int} {m : Nat} {day : Option Nat} {s t u : List Char}
      (before : NumberFirst 4 4 y s) (number : Numeral m t) (places : t.length ≤ 2)
      (after : NumberLast 1 2 (day.map Nat.cast) u) : Written (.month y m day) (s ++ (t ++ u))
  | isoWeek {y : Option Int} {week : Nat} {day : Option Nat} {s t u : List Char}
      (before : NumberFirst 4 4 y s) (number : Lettered 'w' 1 2 week t)
      (after : NumberLast 1 1 (day.map Nat.cast) u) : Written (.isoWeek y week day) (s ++ (t ++ u))
  | quarter {y : Option Int} {q : Nat} {s t : List Char} (before : NumberFirst 4 4 y s)
      (number : Lettered 'q' 1 1 q t) : Written (.quarter y q) (s ++ t)
  | half {y : Option Int} {h : Nat} {s t : List Char} (before : NumberFirst 4 4 y s)
      (number : Lettered 'h' 1 1 h t) : Written (.half y h) (s ++ t)
  | year {y : Nat} {s : List Char} (number : Numeral y s) (places : s.length = 4) :
      Written (.year y) s
  | halfMonth {y : Option Int} {m : Option Nat} {h : MonthHalf} {s t u : List Char}
      (before : NumberFirst 4 4 y s) (next : NumberFirst 1 2 (m.map Nat.cast) t)
      (letter : lower u = lower h.name.toList) : Written (.halfMonth y m h) (s ++ (t ++ u))
  | weekOfMonth {y : Option Int} {m : Option Nat} {week : Nat} {s t u : List Char}
      (before : NumberFirst 4 4 y s) (next : NumberFirst 1 2 (m.map Nat.cast) t)
      (roman : (lower u, week) ∈ romans) : Written (.weekOfMonth y m week) (s ++ (t ++ u))
  | nthWeekday {y : Option Int} {m : Option Nat} {nth : Int} {w : Weekday}
      {s t u v : List Char} (before : NumberFirst 4 4 y s)
      (next : NumberFirst 1 2 (m.map Nat.cast) t) (ordinal : Ordinal nth u)
      (word : WeekdayWord w v) : Written (.nthWeekday y m nth w) (s ++ (t ++ (u ++ v)))
  | easter {y : Option Int} {s t : List Char} (before : NumberFirst 4 4 y s)
      (letter : lower t = ['e']) : Written (.easter y 0) (s ++ t)
  | easterOffset {y : Option Int} {offset : Int} {s t u : List Char}
      (before : NumberFirst 4 4 y s) (letter : lower t = ['e']) (number : Signed offset u) :
      Written (.easter y offset) (s ++ (t ++ u))
  | relative {chunk : Chunk} {offset : Int} {s t u : List Char}
      (relation : (lower s, offset) ∈ relations) (link : IsLink t)
      (name : NamesChunk chunk (lower u)) : Written (.relative chunk offset) (s ++ (t ++ u))
  | tomorrow {s t u : List Char} (relation : lower s = "to".toList) (link : IsLink t)
      (morrow : lower u = "morrow".toList) : Written (.relative .day 1) (s ++ (t ++ u))
  | forever {s : List Char} (word : lower s = "forever".toList) : Written .forever s
  | never {s : List Char} (word : lower s = "never".toList) : Written .never s

theorem KnownYear.exists_text {y : Option Int} (h : KnownYear y) : ∃ s, NumberFirst 4 4 y s := by
  cases y with
  | none => exact ⟨[], .absent⟩
  | some i =>
    have range := h i rfl
    obtain ⟨n, rfl⟩ := Int.eq_ofNat_of_zero_le range.1
    exact @exists_numberFirst 4 4 (some n) (by decide) (by decide) fun m same => by
      cases same
      omega

theorem KnownMonth.exists_text {m : Option Nat} (h : KnownMonth m) :
    ∃ s, NumberFirst 1 2 (m.map Nat.cast) s :=
  exists_numberFirst (by decide) (by decide) fun n here => by
    have range := h n here
    omega

theorem exists_written {p : Period} (h : p.Documented) : ∃ text, Written p text := by
  cases p with
  | dayOfYear y day =>
    obtain ⟨known, low, high⟩ := h
    obtain ⟨s, before⟩ := known.exists_text
    obtain ⟨t, number, length⟩ := Text.exists_numeral (show 0 < 3 by decide)
      (show day < 10 ^ 3 by omega)
    exact ⟨_, .dayOfYear before number length⟩
  | month y m day =>
    obtain ⟨known, inYear, short⟩ := h
    obtain ⟨s, before⟩ := known.exists_text
    obtain ⟨t, number, length⟩ := Text.exists_numeral (show 0 < 2 by decide)
      (show m < 10 ^ 2 by omega)
    obtain ⟨u, after⟩ : ∃ u, NumberLast 1 2 (day.map Nat.cast) u :=
      exists_numberLast (by decide) (by decide) fun d here => by
        have range := short d here
        omega
    exact ⟨_, .month before number (Nat.le_of_eq length) after⟩
  | isoWeek y week day =>
    obtain ⟨known, inYear, inWeek⟩ := h
    obtain ⟨s, before⟩ := known.exists_text
    obtain ⟨t, number⟩ : ∃ t, Lettered 'w' 1 2 week t :=
      exists_lettered (by decide) (by decide) (by omega) (by decide)
    obtain ⟨u, after⟩ : ∃ u, NumberLast 1 1 (day.map Nat.cast) u :=
      exists_numberLast (by decide) (by decide) fun d here => by
        have range := inWeek d here
        omega
    exact ⟨_, .isoWeek before number after⟩
  | quarter y q =>
    obtain ⟨known, low, high⟩ := h
    obtain ⟨s, before⟩ := known.exists_text
    obtain ⟨t, number⟩ : ∃ t, Lettered 'q' 1 1 q t :=
      exists_lettered (by decide) (by decide) (by omega) (by decide)
    exact ⟨_, .quarter before number⟩
  | half y n =>
    obtain ⟨known, low, high⟩ := h
    obtain ⟨s, before⟩ := known.exists_text
    obtain ⟨t, number⟩ : ∃ t, Lettered 'h' 1 1 n t :=
      exists_lettered (by decide) (by decide) (by omega) (by decide)
    exact ⟨_, .half before number⟩
  | year y =>
    obtain ⟨low, high⟩ := h
    obtain ⟨n, rfl⟩ := Int.eq_ofNat_of_zero_le low
    obtain ⟨s, number, length⟩ := Text.exists_numeral (show 0 < 4 by decide)
      (show n < 10 ^ 4 by omega)
    exact ⟨_, .year number length⟩
  | halfMonth y m half =>
    obtain ⟨s, before⟩ := h.1.exists_text
    obtain ⟨t, next⟩ := h.2.exists_text
    exact ⟨_, .halfMonth before next rfl⟩
  | weekOfMonth y m week =>
    have numerals : ∀ week < 7, 1 ≤ week → ∃ r ∈ romans, (lower r.1, week) ∈ romans := by
      decide
    obtain ⟨knownYear, knownMonth, low, high⟩ := h
    obtain ⟨s, before⟩ := knownYear.exists_text
    obtain ⟨t, next⟩ := knownMonth.exists_text
    obtain ⟨r, -, roman⟩ := numerals week (Nat.lt_succ_of_le high) low
    exact ⟨_, .weekOfMonth before next roman⟩
  | nthWeekday y m nth w =>
    obtain ⟨s, before⟩ := h.1.exists_text
    obtain ⟨t, next⟩ := h.2.1.exists_text
    obtain ⟨u, number⟩ := exists_signed nth
    have word : WeekdayWord w w.initials := by
      cases w <;> exact ⟨List.all_eq_true.mp rfl, rfl⟩
    exact ⟨_, .nthWeekday before next (.signed number) word⟩
  | easter y offset =>
    obtain ⟨s, before⟩ := h.1.exists_text
    obtain ⟨u, number⟩ := exists_signed offset
    have letter : lower ['e'] = ['e'] := by decide
    exact ⟨_, .easterOffset before letter number⟩
  | relative chunk offset =>
    have words : ∀ i ∈ [-1, 0, 1], ∃ r ∈ relations, (lower r.1, i) ∈ relations := by
      decide
    have known : offset ∈ [-1, 0, 1] := by
      simp only [List.mem_cons, List.not_mem_nil, or_false]
      exact h
    obtain ⟨r, -, relation⟩ := words offset known
    have name : NamesChunk chunk (lower chunk.name.toList) := .inl (by cases chunk <;> rfl)
    exact ⟨_, .relative relation (.inl rfl) name⟩
  | forever => exact ⟨_, .forever (show lower "forever".toList = _ from rfl)⟩
  | never => exact ⟨_, .never (show lower "never".toList = _ from rfl)⟩

end Period

end Almanac
