import Almanac.Period.Form
import Almanac.Proofs.Text.Pattern

set_option autoImplicit false

/-!
# The pieces of the forms

The numbers, letters and words that the forms of a period are put together from, and what of a text
each of them takes.
-/

namespace Almanac.Form

open Text
open Text.Pattern

structure IsRun (low high : Nat) (s : List Char) : Prop where
  decimal : ∀ c ∈ s, isDecimal c = true
  length : low ≤ s.length ∧ s.length ≤ high

def IsSeparator (c : Char) : Prop :=
  c = '-' ∨ c = '/'

instance : DecidablePred IsSeparator :=
  fun _ => inferInstanceAs (Decidable (_ ∨ _))

variable {s t u w : List Char} {f : Fields Field} {low high : Nat} {name : Field} {c d : Char}

theorem not_isDecimal_of_isSeparator (h : IsSeparator c) : isDecimal c = false := by
  rcases h with rfl | rfl
  next => decide
  next => decide

theorem not_isLetter_of_isSeparator (h : IsSeparator c) : isLetter c = false := by
  rcases h with rfl | rfl
  next => decide
  next => decide

theorem has_separator : (Class.among ['-', '/']).has c = true ↔ IsSeparator c := by
  have marks : ['-', '/'].all (fun d => !isLetter d) = true := by decide
  simp only [has_among_marks marks, List.mem_cons, List.not_mem_nil, or_false, IsSeparator]

theorem matches_decimals {Name : Type} {f : Fields Name} (h : low ≤ high) :
    Matches (.count .decimal low high) s f ↔ IsRun low high s ∧ f = [] := by
  rw [matches_count h]
  constructor
  next =>
    rintro ⟨decimal, length, rfl⟩
    exact ⟨⟨decimal, length⟩, rfl⟩
  next =>
    rintro ⟨run, rfl⟩
    exact ⟨run.decimal, run.length, rfl⟩

theorem matches_digits (h : low ≤ high) :
    Matches (digits low high) s f ↔ IsRun low high s ∧ f = [] :=
  matches_decimals h

theorem matches_number (h : low ≤ high) :
    Matches (.field name (digits low high)) s f ↔ IsRun low high s ∧ f = [(name, s)] := by
  rw [matches_field]
  simp only [matches_digits h]
  constructor
  next =>
    rintro ⟨g, ⟨run, rfl⟩, rfl⟩
    exact ⟨run, rfl⟩
  next =>
    rintro ⟨run, rfl⟩
    exact ⟨[], ⟨run, rfl⟩, rfl⟩

theorem matches_separator :
    Matches separator s f ↔ ∃ c, IsSeparator c ∧ s = [c] ∧ f = [] := by
  simp only [separator, matches_one, has_separator]

theorem matches_letter : Matches (letter d) s f ↔ ∃ c, fold c = d ∧ s = [c] ∧ f = [] := by
  simp only [letter, matches_one, has_among, List.mem_singleton]

def numberFirst (name : Field) (low high : Nat) : Pattern Field :=
  opt (.seq (.field name (digits low high)) separator)

theorem matches_numberFirst (h : low ≤ high) :
    Matches (numberFirst name low high) s f ↔
      (s = [] ∧ f = []) ∨
        ∃ run c, IsRun low high run ∧ IsSeparator c ∧ s = run ++ [c] ∧ f = [(name, run)] := by
  rw [numberFirst, matches_opt, matches_seq, or_comm]
  apply or_congr_right
  simp only [matches_number h, matches_separator]
  constructor
  next =>
    rintro ⟨run, _, _, _, ⟨isRun, rfl⟩, ⟨c, isSeparator, rfl, rfl⟩, rfl, rfl⟩
    exact ⟨run, c, isRun, isSeparator, rfl, rfl⟩
  next =>
    rintro ⟨run, c, isRun, isSeparator, rfl, rfl⟩
    exact ⟨run, _, [c], [], ⟨isRun, rfl⟩, ⟨c, isSeparator, rfl, rfl⟩, rfl, rfl⟩

def numberLast (name : Field) (low high : Nat) : Pattern Field :=
  opt (.seq separator (.field name (digits low high)))

theorem matches_numberLast (h : low ≤ high) :
    Matches (numberLast name low high) s f ↔
      (s = [] ∧ f = []) ∨
        ∃ c run, IsSeparator c ∧ IsRun low high run ∧ s = c :: run ∧ f = [(name, run)] := by
  rw [numberLast, matches_opt, matches_seq, or_comm]
  apply or_congr_right
  simp only [matches_number h, matches_separator]
  constructor
  next =>
    rintro ⟨_, _, run, _, ⟨c, isSeparator, rfl, rfl⟩, ⟨isRun, rfl⟩, rfl, rfl⟩
    exact ⟨c, run, isSeparator, isRun, rfl, rfl⟩
  next =>
    rintro ⟨c, run, isSeparator, isRun, rfl, rfl⟩
    exact ⟨[c], [], run, _, ⟨c, isSeparator, rfl, rfl⟩, ⟨isRun, rfl⟩, rfl, rfl⟩

theorem matches_lettered (h : low ≤ high) :
    Matches (lettered d (digits low high)) s f ↔
      ∃ run c, IsRun low high run ∧ fold c = d ∧ (s = run ++ [c] ∨ s = c :: run) ∧
        f = [(.number, run)] := by
  simp only [lettered, matches_alt, matches_seq, matches_number h, matches_letter]
  constructor
  next =>
    rintro (⟨run, _, _, _, ⟨isRun, rfl⟩, ⟨c, same, rfl, rfl⟩, rfl, rfl⟩ |
      ⟨_, _, run, _, ⟨c, same, rfl, rfl⟩, ⟨isRun, rfl⟩, rfl, rfl⟩)
    next => exact ⟨run, c, isRun, same, .inl rfl, rfl⟩
    next => exact ⟨run, c, isRun, same, .inr rfl, rfl⟩
  next =>
    rintro ⟨run, c, isRun, same, rfl | rfl, rfl⟩
    next => exact .inl ⟨run, _, [c], [], ⟨isRun, rfl⟩, ⟨c, same, rfl, rfl⟩, rfl, rfl⟩
    next => exact .inr ⟨[c], [], run, _, ⟨c, same, rfl, rfl⟩, ⟨isRun, rfl⟩, rfl, rfl⟩

theorem matches_words {words : List (List Char)} :
    Matches (.field name (oneOf (words.map word))) s f ↔ s.map fold ∈ words ∧ f = [(name, s)] := by
  rw [matches_field]
  simp only [matches_oneOf_words]
  constructor
  next =>
    rintro ⟨g, ⟨inWords, rfl⟩, rfl⟩
    exact ⟨inWords, rfl⟩
  next =>
    rintro ⟨inWords, rfl⟩
    exact ⟨[], ⟨inWords, rfl⟩, rfl⟩

theorem matches_sign : Matches sign s f ↔ ∃ c, (c = '-' ∨ c = '+') ∧ s = [c] ∧ f = [] := by
  have marks : ['-', '+'].all (fun d => !isLetter d) = true := by decide
  simp only [sign, matches_one, has_among_marks marks, List.mem_cons, List.not_mem_nil, or_false]

def signed : Pattern Field :=
  .seq sign (.atLeastOne .decimal)

def ordinal : Pattern Field :=
  .seq (opt sign) (.atLeastOne .decimal)

theorem matches_signed :
    Matches signed s f ↔ ∃ c run, (c = '-' ∨ c = '+') ∧ run ≠ [] ∧
      (∀ c ∈ run, isDecimal c = true) ∧ s = c :: run ∧ f = [] := by
  simp only [signed, matches_seq, matches_sign, matches_atLeastOne, Class.has]
  constructor
  next =>
    rintro ⟨_, _, run, _, ⟨c, isSign, rfl, rfl⟩, ⟨nonempty, decimal, rfl⟩, rfl, rfl⟩
    exact ⟨c, run, isSign, nonempty, decimal, rfl, rfl⟩
  next =>
    rintro ⟨c, run, isSign, nonempty, decimal, rfl, rfl⟩
    exact ⟨[c], [], run, [], ⟨c, isSign, rfl, rfl⟩, ⟨nonempty, decimal, rfl⟩, rfl, rfl⟩

theorem matches_ordinal :
    Matches ordinal s f ↔
      Matches signed s f ∨ s ≠ [] ∧ (∀ c ∈ s, isDecimal c = true) ∧ f = [] := by
  constructor
  next =>
    intro m
    obtain ⟨s₁, f₁, s₂, f₂, first, second, rfl, rfl⟩ := matches_seq.mp m
    rcases matches_opt.mp first with first | ⟨rfl, rfl⟩
    next => exact .inl (.seq first second)
    next => exact .inr (matches_atLeastOne.mp second)
  next =>
    rintro (m | unsigned)
    next =>
      obtain ⟨s₁, f₁, s₂, f₂, first, second, rfl, rfl⟩ := matches_seq.mp m
      exact .seq (matches_opt.mpr (.inl first)) second
    next =>
      have nothing : Matches (opt sign) [] [] := matches_opt.mpr (.inr ⟨rfl, rfl⟩)
      exact .seq nothing (matches_atLeastOne.mpr unsigned)

def link : Pattern Field :=
  opt (.one (.among ['-', '_']))

theorem matches_link : Matches link s f ↔ (s = [] ∨ s = ['-'] ∨ s = ['_']) ∧ f = [] := by
  have marks : ['-', '_'].all (fun d => !isLetter d) = true := by decide
  rw [link, matches_opt, matches_one]
  simp only [has_among_marks marks, List.mem_cons, List.not_mem_nil, or_false]
  constructor
  next =>
    rintro (⟨c, rfl | rfl, rfl, rfl⟩ | ⟨rfl, rfl⟩)
    next => exact ⟨.inr (.inl rfl), rfl⟩
    next => exact ⟨.inr (.inr rfl), rfl⟩
    next => exact ⟨.inl rfl, rfl⟩
  next =>
    rintro ⟨rfl | rfl | rfl, rfl⟩
    next => exact .inr ⟨rfl, rfl⟩
    next => exact .inl ⟨'-', .inl rfl, rfl, rfl⟩
    next => exact .inl ⟨'_', .inr rfl, rfl, rfl⟩

theorem isLetter_of_folded (folded : s.map fold = w) (lower : w.all Char.isLower = true) :
    ∀ c ∈ s, isLetter c = true := by
  intro c member
  exact List.all_eq_true.mp lower _ (folded ▸ List.mem_map_of_mem member)

theorem length_initials (w : Weekday) : w.initials.length = 2 := by
  cases w <;> rfl

theorem isLower_initials (w : Weekday) : w.initials.all Char.isLower = true := by
  cases w <;> rfl

theorem matches_weekdayWord :
    Matches weekdayWord s f ↔ ∃ w : Weekday, (s.take 2).map fold = w.initials ∧
      (∀ c ∈ s, isLetter c = true) ∧ f = [(.weekday, s)] := by
  have words : (Weekday.all.map fun w => @word Field w.initials) =
      (Weekday.all.map Weekday.initials).map word := rfl
  rw [weekdayWord, words, matches_field]
  constructor
  next =>
    rintro ⟨g, m, rfl⟩
    obtain ⟨s₁, f₁, s₂, f₂, first, second, rfl, rfl⟩ := matches_seq.mp m
    obtain ⟨inWords, rfl⟩ := matches_oneOf_words.mp first
    obtain ⟨letters, rfl⟩ := matches_many.mp second
    obtain ⟨w, -, folded⟩ := List.mem_map.mp inWords
    have two : s₁.length = 2 := by rw [← List.length_map fold, ← folded, length_initials]
    refine ⟨w, by rw [List.take_left' two, folded], ?_, rfl⟩
    intro c member
    rcases List.mem_append.mp member with initial | later
    next => exact isLetter_of_folded folded.symm (isLower_initials w) c initial
    next => exact letters c later
  next =>
    rintro ⟨w, initials, letters, rfl⟩
    have inWords : (s.take 2).map fold ∈ Weekday.all.map Weekday.initials := by
      rw [initials]
      exact List.mem_map_of_mem (by cases w <;> decide)
    have initial : Matches (oneOf ((Weekday.all.map Weekday.initials).map word) : Pattern Field)
        (s.take 2) [] := matches_oneOf_words.mpr ⟨inWords, rfl⟩
    have later : Matches (.many .letter : Pattern Field) (s.drop 2) [] :=
      .many fun c member => letters c (List.mem_of_mem_drop member)
    have whole := initial.seq later
    rw [List.take_append_drop] at whole
    exact ⟨[], whole, rfl⟩

end Almanac.Form
