import Almanac.Text.Blank
import Almanac.Proofs.Text.Letter

set_option autoImplicit false

/-!
# Texts without blanks

No digit and no letter is a blank, and a text without blanks is left as it is.
-/

namespace Almanac.Text

variable {c : Char} {s : List Char}

def Blanks (s : List Char) : Prop :=
  ∀ c ∈ s, isBlank c = true

theorem not_isBlank_of_isDecimal (h : isDecimal c = true) : isBlank c = false := by
  have apart : ∀ z ∈ zeros, ∀ r ∈ blankRanges, z + 10 ≤ r.1 ∨ r.2 < z := by decide
  obtain ⟨n, value⟩ := Option.isSome_iff_exists.mp h
  obtain ⟨z, found, -⟩ := Option.map_eq_some_iff.mp value
  have run := List.find?_some found
  simp only [Bool.and_eq_true, decide_eq_true_eq] at run
  rw [isBlank, List.any_eq_false]
  intro r member
  have away := apart z (List.mem_of_find?_eq_some found) r member
  simp only [Bool.and_eq_true, decide_eq_true_eq]
  omega

theorem not_isBlank_of_isLetter (h : isLetter c = true) : isBlank c = false := by
  have apart : ∀ r ∈ blankRanges, (r.2 < 65 ∨ 122 < r.1) ∧ (r.2 < 383 ∨ 383 < r.1) ∧
      (r.2 < 8490 ∨ 8490 < r.1) := by
    decide
  have letter := isLetter_iff.mp h
  rw [isBlank, List.any_eq_false]
  intro r member
  have away := apart r member
  simp only [Bool.and_eq_true, decide_eq_true_eq]
  omega

theorem trimStart_eq_self (bare : ∀ c ∈ s, isBlank c = false) : trimStart s = s := by
  cases s with
  | nil => rfl
  | cons c s =>
    exact List.dropWhile_cons_of_neg (Bool.eq_false_iff.mp (bare c List.mem_cons_self))

theorem trimEnd_eq_self (bare : ∀ c ∈ s, isBlank c = false) : trimEnd s = s := by
  have reversed : trimStart s.reverse = s.reverse :=
    trimStart_eq_self fun c member => bare c (List.mem_reverse.mp member)
  rw [trimEnd, ← trimStart, reversed, List.reverse_reverse]

theorem trim_eq_self (bare : ∀ c ∈ s, isBlank c = false) : trim s = s := by
  rw [trim, trimStart_eq_self bare, trimEnd_eq_self bare]

theorem trim_of_letters (letters : ∀ c ∈ s, isLetter c = true) : trim s = s :=
  trim_eq_self fun c member => not_isBlank_of_isLetter (letters c member)

theorem spaced_eq_self (bare : ∀ c ∈ s, isBlank c = false) : spaced false s = s := by
  induction s with
  | nil => rfl
  | cons c s ih =>
    have first := bare c List.mem_cons_self
    have others : spaced false s = s := ih fun d member => bare d (List.mem_cons_of_mem c member)
    simp only [spaced, first, others, Bool.false_eq_true, if_false]

theorem squeeze_eq_self (bare : ∀ c ∈ s, isBlank c = false) : squeeze s = s := by
  rw [squeeze, trimStart_eq_self bare, spaced_eq_self bare]

end Almanac.Text
