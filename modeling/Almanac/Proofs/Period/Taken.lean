import Almanac.Proofs.Period.Fields
import Almanac.Proofs.Period.Forms
import Almanac.Proofs.Text.Blank

set_option autoImplicit false

/-!
# Reading a text that a form takes

The texts of the forms are made of digits, letters and a few marks. There is nothing in them to tidy
and no skip to cut off, so that a text which a form takes is read as the form builds it.
-/

namespace Almanac

open Text (Fields isBlank isDecimal isLetter)
open Text.Pattern (Matches)

namespace Form

variable {form : Form} {s : List Char} {f : Fields Field} {c : Char}

def marks : List Char :=
  ['-', '/', '+', '_']

def Inner (c : Char) : Prop :=
  isDecimal c = true ∨ isLetter c = true ∨ c ∈ marks

def isInner : Text.Class → Bool
  | .blank => false
  | .decimal | .letter => true
  | .among chars => chars.all fun d => d.isLower || marks.contains d

theorem isInner_classes : ∀ form ∈ all, form.pattern.classes.all isInner = true := by
  decide

theorem inner_of_isInner {k : Text.Class} (h : isInner k = true) (inside : k.has c = true) :
    Inner c := by
  cases k with
  | blank => cases h
  | decimal => exact .inl inside
  | letter => exact .inr (.inl inside)
  | among chars =>
    have folded := List.all_eq_true.mp h _ (Text.Pattern.has_among.mp inside)
    simp only [Bool.or_eq_true, List.contains_iff_mem] at folded
    rcases folded with letter | mark
    next => exact .inr (.inl letter)
    next =>
      have plain : marks.all (fun d => !isLetter d) = true := by decide
      exact .inr (.inr ((Text.Pattern.has_among_marks plain).mp (Text.Pattern.has_among.mpr mark)))

theorem inner_of_matches (m : Matches form.pattern s f) : ∀ c ∈ s, Inner c := by
  intro c member
  obtain ⟨k, ofForm, inside⟩ := Text.Pattern.exists_class m c member
  exact inner_of_isInner (List.all_eq_true.mp (isInner_classes form (mem_all form)) k ofForm) inside

theorem Inner.not_isBlank (h : Inner c) : isBlank c = false := by
  rcases h with decimal | letter | mark
  next => exact Text.not_isBlank_of_isDecimal decimal
  next => exact Text.not_isBlank_of_isLetter letter
  next =>
    have apart : marks.all (fun d => !isBlank d) = true := by decide
    simpa using List.all_eq_true.mp apart c mark

theorem Inner.not_angle (h : Inner c) : c ∉ ['<', '>'] := by
  have apart :
      ['<', '>'].all (fun d => !isDecimal d && !isLetter d && !marks.contains d) = true := by
    decide
  intro angle
  have outside := List.all_eq_true.mp apart c angle
  simp only [Bool.and_eq_true, Bool.not_eq_true', List.contains_eq_mem, decide_eq_false_iff_not]
    at outside
  obtain ⟨⟨notDecimal, notLetter⟩, notMark⟩ := outside
  rcases h with decimal | letter | mark
  next => exact Bool.false_ne_true (notDecimal.symm.trans decimal)
  next => exact Bool.false_ne_true (notLetter.symm.trans letter)
  next => exact notMark mark

end Form

theorem Skip.match?_eq_none {c : Char} (h : c ∉ ['<', '>']) (s : List Char) :
    Skip.pattern.match? (c :: s) = none := by
  rw [← Option.not_isSome_iff_eq_none, Text.Pattern.isSome_match?]
  rintro ⟨f, m⟩
  obtain ⟨s₁, f₁, s₂, f₂, first, -, whole, -⟩ := Text.Pattern.matches_seq.mp m
  obtain ⟨g, first, -⟩ := Text.Pattern.matches_field.mp first
  obtain ⟨d, t, inside, -, rfl⟩ := Text.Pattern.matches_one_seq.mp first
  obtain ⟨rfl, -⟩ := List.cons.inj whole
  have plain : ['<', '>'].all (fun d => !isLetter d) = true := by decide
  exact h ((Text.Pattern.has_among_marks plain).mp inside)

theorem Skip.cut?_eq_none {s : List Char} (h : ∀ c ∈ s, c ∉ ['<', '>']) : cut? s = none := by
  induction s with
  | nil => rfl
  | cons c s ih =>
    have others : cut? s = none := ih fun d member => h d (List.mem_cons_of_mem c member)
    have fails := match?_eq_none (h c List.mem_cons_self) s
    simp only [cut?, fails, others, Option.map_none]

namespace Form

variable {form : Form} {s : List Char} {f : Fields Field} {period : Period}

theorem read_of_matches (m : Matches form.pattern s f) :
    Spec.read s = (form.build f).map fun period => ⟨period, none⟩ := by
  have inner := inner_of_matches m
  have tidy := Text.squeeze_eq_self fun c member => (inner c member).not_isBlank
  have noSkip := Skip.cut?_eq_none fun c member => (inner c member).not_angle
  have matched := (Text.Pattern.match?_eq_some_iff (determined_pattern form)).mpr m
  have period := read?_eq_of_match? (mem_all form) matched
  have whole : Skip.split s = .ok (s, none) := by rw [Skip.split, noSkip]
  simp only [Spec.read, Spec.readWith, tidy, whole, bind, Except.bind, period]
  cases form.build f with
  | ok period => rfl
  | error e => rfl

end Form

end Almanac
