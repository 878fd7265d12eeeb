import Almanac.Proofs.Period.Pieces

set_option autoImplicit false

/-!
# One way to take a text

A form takes a text in one way only, so that the fields of a period depend on its text alone: a year
and a month in front are told from what follows them by the number of digits before the first
separator, and digits, letters and separators end one another.
-/

namespace Almanac.Form

open Text
open Text.Pattern

variable {s t u : List Char} {f g : Fields Field} {low high n : Nat} {name : Field} {c d : Char}
  {p q : Pattern Field}

def opening (s : List Char) : Option Nat :=
  match s.dropWhile isDecimal with
  | [] => none
  | c :: _ => if IsSeparator c then some (s.takeWhile isDecimal).length else none

theorem opening_append (digits : ∀ c ∈ s, isDecimal c = true) (t : List Char) :
    opening (s ++ t) = (opening t).map (s.length + ·) := by
  rw [opening, List.dropWhile_append_of_pos digits, List.takeWhile_append_of_pos digits, opening]
  cases t.dropWhile isDecimal with
  | nil => rfl
  | cons c rest =>
    dsimp only
    split
    next => rw [List.length_append]; rfl
    next => rfl

theorem opening_cons (h : isDecimal c = false) (t : List Char) :
    opening (c :: t) = if IsSeparator c then some 0 else none := by
  have stop : ¬isDecimal c = true := Bool.eq_false_iff.mp h
  rw [opening, List.dropWhile_cons_of_neg stop, List.takeWhile_cons_of_neg stop]
  rfl

theorem opening_of_decimals (digits : ∀ c ∈ s, isDecimal c = true) : opening s = none := by
  have whole := opening_append digits []
  rwa [List.append_nil] at whole

theorem opening_separator (digits : ∀ c ∈ s, isDecimal c = true) (h : IsSeparator c)
    (t : List Char) : opening (s ++ c :: t) = some s.length := by
  rw [opening_append digits, opening_cons (not_isDecimal_of_isSeparator h), if_pos h]
  rfl

theorem opening_letter (digits : ∀ c ∈ s, isDecimal c = true) (h : isLetter c = true)
    (t : List Char) : opening (s ++ c :: t) = none := by
  have notSeparator : ¬IsSeparator c := fun isSeparator =>
    Bool.false_ne_true ((not_isLetter_of_isSeparator isSeparator).symm.trans h)
  rw [opening_append digits, opening_cons (isDecimal_of_isLetter h), if_neg notSeparator]
  rfl

theorem opening_of_letters (letters : ∀ c ∈ s, isLetter c = true) : opening s = none := by
  cases s with
  | nil => rfl
  | cons c s => exact opening_letter (List.forall_mem_nil _) (letters c List.mem_cons_self) s

def Unopened (low high : Nat) (p : Pattern Field) : Prop :=
  ∀ ⦃s f n⦄, Matches p s f → opening s = some n → ¬(low ≤ n ∧ n ≤ high)

theorem unopened_of_none (none : ∀ {s f}, Matches p s f → opening s = none) :
    Unopened low high p := by
  intro s f n m begins
  rw [none m] at begins
  cases begins

theorem determined_numberFirst (h : low ≤ high) : (numberFirst name low high).Determined := by
  intro s f g first second
  rcases (matches_numberFirst h).mp first with ⟨rfl, rfl⟩ | ⟨run, c, -, -, rfl, rfl⟩
  next =>
    rcases (matches_numberFirst h).mp second with ⟨-, rfl⟩ | ⟨run, c, -, -, whole, -⟩
    next => rfl
    next => exact absurd whole.symm (List.append_ne_nil_of_right_ne_nil _ (List.cons_ne_nil _ _))
  next =>
    rcases (matches_numberFirst h).mp second with ⟨whole, -⟩ | ⟨run', c', -, -, whole, rfl⟩
    next => exact absurd whole (List.append_ne_nil_of_right_ne_nil _ (List.cons_ne_nil _ _))
    next => rw [(List.append_inj' whole rfl).1]

theorem splits_numberFirst (h : low ≤ high) (unopened : Unopened low high q) :
    (numberFirst name low high).Splits q := by
  intro s u t f₁ f₂ g₁ g₂ short long _ rest
  rcases (matches_numberFirst h).mp long with ⟨whole, -⟩ | ⟨run, c, isRun, isSeparator, whole, -⟩
  next => exact (List.append_eq_nil_iff.mp whole).2
  next =>
    rcases (matches_numberFirst h).mp short with ⟨rfl, -⟩ | ⟨run', c', isRun', isSeparator', rfl, -⟩
    next =>
      -- Nothing was taken the first time, so the number is the rest of the text and opens it.
      rw [List.nil_append] at whole
      subst whole
      rw [List.append_assoc, List.singleton_append] at rest
      exact absurd isRun.length
        (unopened rest (opening_separator isRun.decimal isSeparator t))
    next =>
      have begins := opening_separator isRun'.decimal isSeparator' u
      have begins' := opening_separator isRun.decimal isSeparator []
      rw [List.append_assoc, List.singleton_append] at whole
      rw [whole, begins', Option.some.injEq] at begins
      have lengths := congrArg List.length whole
      simp only [List.length_append, List.length_cons, List.length_nil] at lengths
      exact List.length_eq_zero_iff.mp (by omega)

theorem determined_numberFirst_seq (h : low ≤ high) (unopened : Unopened low high q)
    (hq : q.Determined) : (seq (numberFirst name low high) q).Determined :=
  determined_seq (splits_numberFirst h unopened) (determined_numberFirst h) hq

theorem unopened_numberFirst_seq {low' high' : Nat} (h : low ≤ high) (apart : high < low')
    (unopened : Unopened low' high' q) :
    Unopened low' high' (seq (numberFirst name low high) q) := by
  intro s f n m begins
  obtain ⟨s₁, f₁, s₂, f₂, first, second, rfl, rfl⟩ := matches_seq.mp m
  rcases (matches_numberFirst h).mp first with ⟨rfl, rfl⟩ | ⟨run, c, isRun, isSeparator, rfl, rfl⟩
  next => exact unopened second begins
  next =>
    have length := isRun.length
    rw [List.append_assoc, List.singleton_append, opening_separator isRun.decimal isSeparator,
      Option.some.injEq] at begins
    omega

theorem determined_number (h : low ≤ high) :
    (field name (digits low high)).Determined :=
  determined_field (determined_of_plain fun m => ((matches_digits h).mp m).2)

theorem determined_numberLast (h : low ≤ high) : (numberLast name low high).Determined := by
  have nonempty : ∀ {f}, ¬Matches (.seq separator (.field name (digits low high))) [] f := by
    intro f m
    obtain ⟨s₁, f₁, s₂, f₂, first, -, whole, -⟩ := matches_seq.mp m
    obtain ⟨c, -, rfl, -⟩ := matches_separator.mp first
    cases whole
  have one : ∀ {s f}, Matches separator s f → s.length = 1 := by
    intro s f m
    obtain ⟨c, -, rfl, -⟩ := matches_separator.mp m
    rfl
  have plain : separator.Determined :=
    determined_of_plain fun m => by
      obtain ⟨c, -, -, rfl⟩ := matches_separator.mp m
      rfl
  exact determined_opt nonempty (determined_seq (splits_of_length one) plain (determined_number h))

theorem determined_lettered (h : low ≤ high) (lower : d.isLower = true) :
    (lettered d (digits low high)).Determined := by
  -- The digits of the text are the number, on whichever side the letter stands.
  have number : ∀ {s f}, Matches (lettered d (digits low high)) s f →
      f = [(.number, s.filter isDecimal)] := by
    intro s f m
    obtain ⟨run, c, isRun, folded, side, rfl⟩ := (matches_lettered h).mp m
    have letter : isLetter c = true := by rw [isLetter, folded, lower]
    have all := List.filter_eq_self.mpr isRun.decimal
    have stop : ¬isDecimal c = true := Bool.eq_false_iff.mp (isDecimal_of_isLetter letter)
    rcases side with rfl | rfl
    next =>
      rw [List.filter_append, all, List.filter_cons_of_neg stop, List.filter_nil, List.append_nil]
    next => rw [List.filter_cons_of_neg stop, all]
  intro s f g first second
  rw [number first, number second]

theorem extension_lettered (h : low ≤ high) (lower : d.isLower = true)
    (short : Matches (lettered d (digits low high)) s f)
    (long : Matches (lettered d (digits low high)) (s ++ u) g) : ∀ c ∈ u, isDecimal c = true := by
  have letters : ∀ {s f}, Matches (lettered d (digits low high)) s f → lettersOf s = [d] := by
    intro s f m
    obtain ⟨run, c, isRun, folded, side, -⟩ := (matches_lettered h).mp m
    have one : lettersOf [c] = [d] :=
      lettersOf_of_folded (congrArg (fun x => [x]) folded)
        (List.all_eq_true.mpr (List.forall_mem_singleton.mpr lower))
    rcases side with rfl | rfl
    next => rw [lettersOf_append, lettersOf_of_decimals isRun.decimal, one, List.nil_append]
    next =>
      rw [← List.singleton_append, lettersOf_append, lettersOf_of_decimals isRun.decimal, one,
        List.append_nil]
  have none : lettersOf u = [] := by
    have both := letters long
    rw [lettersOf_append, letters short] at both
    exact List.append_right_eq_self.mp both
  intro c member
  have notLetter := lettersOf_eq_nil_iff.mp none c member
  obtain ⟨run, c', isRun, folded, side, -⟩ := (matches_lettered h).mp long
  have inside : c ∈ run ∨ c = c' := by
    have whole := List.mem_append_right s member
    rcases side with side | side
    next =>
      rw [side, List.mem_append, List.mem_singleton] at whole
      exact whole
    next =>
      rw [side, List.mem_cons] at whole
      exact whole.symm
  rcases inside with digit | rfl
  next => exact isRun.decimal c digit
  next =>
    rw [isLetter, folded, lower] at notLetter
    cases notLetter

theorem opening_lettered (h : low ≤ high) (lower : d.isLower = true)
    (m : Matches (lettered d (digits low high)) s f) (t : List Char) : opening (s ++ t) = none := by
  obtain ⟨run, c, isRun, folded, side, -⟩ := (matches_lettered h).mp m
  have letter : isLetter c = true := by rw [isLetter, folded, lower]
  rcases side with rfl | rfl
  next =>
    rw [List.append_assoc]
    exact opening_letter isRun.decimal letter t
  next => exact opening_letter (List.forall_mem_nil _) letter (run ++ t)

theorem first_numberLast (h : low ≤ high) (m : Matches (numberLast name low high) (c :: t) f) :
    isDecimal c = false := by
  rcases (matches_numberLast h).mp m with ⟨whole, -⟩ | ⟨c', run, isSeparator, -, whole, -⟩
  next => cases whole
  next =>
    cases whole
    exact not_isDecimal_of_isSeparator isSeparator

theorem first_weekdayWord (m : Matches weekdayWord (c :: t) f) : isDecimal c = false := by
  obtain ⟨w, -, letters, -⟩ := matches_weekdayWord.mp m
  exact isDecimal_of_isLetter (letters c List.mem_cons_self)

theorem plain_signed (m : Matches signed s f) : f = [] := by
  obtain ⟨c, run, -, -, -, -, rfl⟩ := matches_signed.mp m
  rfl

theorem plain_ordinal (m : Matches ordinal s f) : f = [] := by
  rcases matches_ordinal.mp m with m | ⟨-, -, rfl⟩
  next => exact plain_signed m
  next => rfl

theorem ordinal_tail (m : Matches ordinal s f) : s ≠ [] ∧ ∀ c ∈ s.tail, isDecimal c = true := by
  rcases matches_ordinal.mp m with m | ⟨nonempty, decimal, -⟩
  next =>
    obtain ⟨c, run, -, -, decimal, rfl, -⟩ := matches_signed.mp m
    exact ⟨List.cons_ne_nil _ _, decimal⟩
  next => exact ⟨nonempty, fun c member => decimal c (List.mem_of_mem_tail member)⟩

theorem splits_ordinal : (field .nth ordinal).Splits weekdayWord := by
  refine splits_of_extension (isDecimal · = true) ?_ ?_
  next =>
    intro s u f g short long c member
    obtain ⟨f', short, -⟩ := matches_field.mp short
    obtain ⟨g', long, -⟩ := matches_field.mp long
    have longer := (ordinal_tail long).2
    rw [List.tail_append_of_ne_nil (ordinal_tail short).1] at longer
    exact longer c (List.mem_append_right _ member)
  next =>
    intro c t g m
    exact Bool.eq_false_iff.mp (first_weekdayWord m)

theorem opening_ordinal_seq (m : Matches (seq (field .nth ordinal) weekdayWord) s f)
    (begins : opening s = some n) : n = 0 := by
  obtain ⟨s₁, f₁, s₂, f₂, first, second, rfl, rfl⟩ := matches_seq.mp m
  obtain ⟨g, first, -⟩ := matches_field.mp first
  obtain ⟨w, -, letters, -⟩ := matches_weekdayWord.mp second
  rcases matches_ordinal.mp first with first | ⟨-, decimal, -⟩
  next =>
    obtain ⟨c, run, isSign, -, -, rfl, -⟩ := matches_signed.mp first
    have notDecimal : isDecimal c = false := by
      rcases isSign with rfl | rfl
      next => decide
      next => decide
    rw [List.cons_append, opening_cons notDecimal] at begins
    split at begins
    next => exact (Option.some.inj begins).symm
    next => cases begins
  next =>
    rw [opening_append decimal, opening_of_letters letters] at begins
    cases begins

theorem opening_words {words : List (List Char)}
    (lower : ∀ w ∈ words, w.all Char.isLower = true)
    (m : Matches (field name (oneOf (words.map word))) s f) : opening s = none := by
  obtain ⟨inWords, -⟩ := matches_words.mp m
  exact opening_of_letters (isLetter_of_folded rfl (lower _ inWords))

theorem determined_words {words : List (List Char)} :
    (field name (oneOf (words.map word))).Determined :=
  determined_field (determined_of_plain fun m => (matches_oneOf_words.mp m).2)

theorem determined_weekdayWord : weekdayWord.Determined := by
  intro s f g first second
  obtain ⟨w, -, -, rfl⟩ := matches_weekdayWord.mp first
  obtain ⟨w', -, -, rfl⟩ := matches_weekdayWord.mp second
  rfl

theorem relations_apart : ∀ v ∈ relations, ∀ w ∈ relations, v <+: w → v = w := by
  decide

theorem isLower_chunkWords : ∀ w ∈ chunkWords, w.all Char.isLower = true := by
  decide

theorem isLower_romanNumerals : ∀ w ∈ romanNumerals, w.all Char.isLower = true := by
  decide

theorem determined_dayOfYear : (pattern .dayOfYear).Determined := by
  refine determined_numberFirst_seq (by decide) (unopened_of_none ?_)
    (determined_number (by decide))
  intro s f m
  exact opening_of_decimals ((matches_number (by decide)).mp m).1.decimal

theorem determined_month : (pattern .month).Determined := by
  refine determined_numberFirst_seq (by decide) ?_ (determined_seq (splits_of_extension
    (isDecimal · = true) ?_ ?_) (determined_number (by decide)) (determined_numberLast (by decide)))
  next =>
    intro s f n m begins
    obtain ⟨s₁, f₁, s₂, f₂, first, second, rfl, rfl⟩ := matches_seq.mp m
    obtain ⟨run, -⟩ := (matches_number (by decide)).mp first
    have length := run.length
    rcases (matches_numberLast (by decide)).mp second with
      ⟨rfl, -⟩ | ⟨c, last, isSeparator, -, rfl, -⟩
    next =>
      rw [List.append_nil, opening_of_decimals run.decimal] at begins
      cases begins
    next =>
      rw [opening_separator run.decimal isSeparator, Option.some.injEq] at begins
      omega
  next =>
    intro s u f g _ long c member
    exact ((matches_number (by decide)).mp long).1.decimal c (List.mem_append_right s member)
  next =>
    intro c t g m
    exact Bool.eq_false_iff.mp (first_numberLast (by decide) m)

theorem determined_isoWeek : (pattern .isoWeek).Determined := by
  refine determined_numberFirst_seq (by decide) (unopened_of_none ?_) (determined_seq
    (splits_of_extension (isDecimal · = true) (extension_lettered (by decide) rfl) ?_)
    (determined_lettered (by decide) rfl) (determined_numberLast (by decide)))
  next =>
    intro s f m
    obtain ⟨s₁, f₁, s₂, f₂, first, -, rfl, -⟩ := matches_seq.mp m
    exact opening_lettered (by decide) rfl first s₂
  next =>
    intro c t g m
    exact Bool.eq_false_iff.mp (first_numberLast (by decide) m)

theorem determined_yearLettered (lower : d.isLower = true) :
    (seq yearFirst (lettered d (digits 1 1))).Determined := by
  refine determined_numberFirst_seq (by decide) (unopened_of_none ?_)
    (determined_lettered (by decide) lower)
  intro s f m
  have none := opening_lettered (by decide) lower m []
  rwa [List.append_nil] at none

theorem determined_yearMonth (unopened : Unopened 1 4 q) (hq : q.Determined) :
    (seq yearFirst (seq monthNext q)).Determined := by
  have month : Unopened 1 2 q := fun s f n m begins within =>
    unopened m begins ⟨within.1, by omega⟩
  have year : Unopened 4 4 q := fun s f n m begins within =>
    unopened m begins ⟨by omega, within.2⟩
  exact determined_numberFirst_seq (by decide)
    (unopened_numberFirst_seq (by decide) (by decide) year)
    (determined_numberFirst_seq (by decide) month hq)

theorem determined_halfMonth : (pattern .halfMonth).Determined := by
  refine determined_yearMonth (unopened_of_none ?_) (determined_field (determined_of_plain ?_))
  next =>
    intro s f m
    obtain ⟨g, m, -⟩ := matches_field.mp m
    obtain ⟨c, inside, rfl, -⟩ := matches_one.mp m
    have lower : ['a', 'b'].all Char.isLower = true := by decide
    have letter : isLetter c = true := List.all_eq_true.mp lower _ (has_among.mp inside)
    exact opening_of_letters (List.forall_mem_singleton.mpr letter)
  next =>
    intro s f m
    obtain ⟨c, -, -, rfl⟩ := matches_one.mp m
    rfl

theorem determined_weekOfMonth : (pattern .weekOfMonth).Determined :=
  determined_yearMonth (unopened_of_none (opening_words isLower_romanNumerals)) determined_words

theorem determined_nthWeekday : (pattern .nthWeekday).Determined := by
  refine determined_yearMonth ?_ (determined_seq splits_ordinal
    (determined_field (determined_of_plain plain_ordinal)) determined_weekdayWord)
  intro s f n m begins
  have zero := opening_ordinal_seq m begins
  omega

theorem determined_easter : (pattern .easter).Determined := by
  have offset : (opt (field .offset signed)).Determined := by
    refine determined_opt ?_ (determined_field (determined_of_plain plain_signed))
    intro f m
    obtain ⟨g, m, -⟩ := matches_field.mp m
    obtain ⟨c, run, -, -, -, whole, -⟩ := matches_signed.mp m
    cases whole
  have one : ∀ {s f}, Matches (letter 'e') s f → s.length = 1 ∧ f = [] := by
    intro s f m
    obtain ⟨c, -, rfl, rfl⟩ := matches_letter.mp m
    exact ⟨rfl, rfl⟩
  refine determined_numberFirst_seq (by decide) (unopened_of_none ?_)
    (determined_seq (splits_of_length fun m => (one m).1) (determined_of_plain fun m => (one m).2)
      offset)
  intro s f m
  obtain ⟨s₁, f₁, s₂, f₂, first, -, rfl, -⟩ := matches_seq.mp m
  obtain ⟨c, folded, rfl, -⟩ := matches_letter.mp first
  exact opening_letter (List.forall_mem_nil _) (by rw [isLetter, folded]; rfl) s₂

theorem determined_relative : (pattern .relative).Determined := by
  refine determined_seq (splits_of_words relations_apart fun m => (matches_words.mp m).1)
    determined_words (determined_seq (splits_of_extension (isLetter · = false) ?_ ?_)
      (determined_of_plain fun m => (matches_link.mp m).2) determined_words)
  next =>
    intro s u f g _ long c member
    obtain ⟨mark, -⟩ := matches_link.mp long
    have inside := List.mem_append_right s member
    rcases mark with mark | mark | mark
    next => rw [mark] at inside; cases inside
    next => rw [mark, List.mem_singleton] at inside; rw [inside]; decide
    next => rw [mark, List.mem_singleton] at inside; rw [inside]; decide
  next =>
    intro c t g m
    obtain ⟨inWords, -⟩ := matches_words.mp m
    have letter := isLetter_of_folded rfl (isLower_chunkWords _ inWords) c List.mem_cons_self
    rw [letter]
    exact Bool.true_eq_false.mp

theorem determined_pattern (form : Form) : form.pattern.Determined := by
  cases form with
  | dayOfYear => exact determined_dayOfYear
  | month => exact determined_month
  | isoWeek => exact determined_isoWeek
  | quarter => exact determined_yearLettered rfl
  | half => exact determined_yearLettered rfl
  | year => exact determined_number (by decide)
  | halfMonth => exact determined_halfMonth
  | weekOfMonth => exact determined_weekOfMonth
  | nthWeekday => exact determined_nthWeekday
  | easter => exact determined_easter
  | relative => exact determined_relative
  | forever => exact determined_of_plain fun m => (matches_word.mp m).2
  | never => exact determined_of_plain fun m => (matches_word.mp m).2

end Almanac.Form
