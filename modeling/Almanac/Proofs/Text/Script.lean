import Almanac.Proofs.Text.Numeral

set_option autoImplicit false

/-!
# Numerals in any script

The number that a numeral denotes when its digits may be those of any script. As a word of 64 bits
it counts as that number or as a limit of the word, and digits beyond ASCII lead to the limit.
-/

namespace Almanac.Text

variable {c : Char} {s : List Char} {n : Nat} {i : Int}

def scriptValue? : Nat → List Char → Option Nat
  | n, [] => some n
  | n, c :: s => (digitValue? c).bind fun d => scriptValue? (10 * n + d) s

def unsigned? (s : List Char) : Option Nat :=
  if s = [] then none else scriptValue? 0 s

def denoted? : List Char → Option Int
  | '-' :: s => (unsigned? s).map fun n : Nat => -(n : Int)
  | '+' :: s => (unsigned? s).map Nat.cast
  | s => (unsigned? s).map Nat.cast

theorem scriptValue?_of_ascii (digits : ∀ c ∈ s, c.isDigit = true) (n : Nat) :
    scriptValue? n s = some (positional n s) := by
  induction s generalizing n with
  | nil => rfl
  | cons c s ih =>
    have digit : digitValue? c = some (asciiValue c) :=
      digitValue?_of_isDigit (digits c List.mem_cons_self)
    rw [scriptValue?, digit, Option.bind_some, positional_cons]
    exact ih (fun d member => digits d (List.mem_cons_of_mem c member)) _

theorem unsigned?_of_readDigits? (h : readDigits? s = some n) : unsigned? s = some n := by
  unfold readDigits? at h
  split at h
  next ascii =>
    cases h
    rw [unsigned?, if_neg ascii.1, scriptValue?_of_ascii (List.all_eq_true.mp ascii.2)]
  next => cases h

theorem denoted?_of_readInt? (h : readInt? s = some i) : denoted? s = some i := by
  unfold readInt? at h
  split at h
  next s =>
    obtain ⟨n, digits, rfl⟩ : ∃ n : Nat, readDigits? s = some n ∧ -(n : Int) = i := by
      simpa [Option.bind_eq_some_iff] using h
    rw [denoted?, unsigned?_of_readDigits? digits, Option.map_some]
  next s =>
    obtain ⟨n, digits, rfl⟩ : ∃ n : Nat, readDigits? s = some n ∧ (n : Int) = i := by
      simpa [Option.bind_eq_some_iff] using h
    rw [denoted?, unsigned?_of_readDigits? digits, Option.map_some]
  next minus plus =>
    obtain ⟨n, digits, rfl⟩ : ∃ n : Nat, readDigits? s = some n ∧ (n : Int) = i := by
      simpa [Option.bind_eq_some_iff] using h
    rw [denoted?, unsigned?_of_readDigits? digits, Option.map_some]
    next => exact minus
    next => exact plus

theorem denoted?_of_saturated (h : -wordLimit < saturated s ∧ saturated s < wordLimit) :
    denoted? s = some (saturated s) := by
  unfold saturated at h ⊢
  split at h
  next i fits => exact denoted?_of_readInt? (Option.filter_eq_some_iff.mp fits).1
  next =>
    split at h
    next => exact absurd h.1 (Int.lt_irrefl _)
    next => exact absurd h.2 (Int.lt_irrefl _)

theorem exists_scriptValue? (decimals : ∀ c ∈ s, isDecimal c = true) (n : Nat) :
    ∃ m, scriptValue? n s = some m ∧ m < (n + 1) * 10 ^ s.length := by
  induction s generalizing n with
  | nil => exact ⟨n, rfl, by simp⟩
  | cons c s ih =>
    obtain ⟨d, value⟩ := Option.isSome_iff_exists.mp (decimals c List.mem_cons_self)
    have digit := digitValue?_lt value
    obtain ⟨m, others, bound⟩ :=
      ih (fun d member => decimals d (List.mem_cons_of_mem c member)) (10 * n + d)
    have more : 10 * n + d + 1 ≤ (n + 1) * 10 := by omega
    refine ⟨m, by rw [scriptValue?, value, Option.bind_some, others], ?_⟩
    rw [List.length_cons, Nat.pow_succ', ← Nat.mul_assoc]
    exact Nat.lt_of_lt_of_le bound (Nat.mul_le_mul_right _ more)

theorem exists_unsigned? (nonempty : s ≠ []) (decimals : ∀ c ∈ s, isDecimal c = true) :
    ∃ n, unsigned? s = some n ∧ n < 10 ^ s.length := by
  obtain ⟨n, value, bound⟩ := exists_scriptValue? decimals 0
  rw [Nat.zero_add, Nat.one_mul] at bound
  exact ⟨n, by rw [unsigned?, if_neg nonempty, value], bound⟩

theorem Numeral.unsigned? (h : Numeral n s) : unsigned? s = some n :=
  unsigned?_of_readDigits? h.readDigits?

theorem saturated_of_decimals (nonempty : s ≠ []) (decimals : ∀ c ∈ s, isDecimal c = true)
    (short : s.length ≤ 18) :
    ∃ n : Nat, n < 10 ^ s.length ∧ denoted? s = some (n : Int) ∧
      saturated s = if s.all Char.isDigit = true then (n : Int) else wordLimit := by
  have noSign (c : Char) (sign : isDecimal c = false) : s.head? ≠ some c := by
    intro first
    exact Bool.false_ne_true (sign.symm.trans (decimals c (List.mem_of_head? first)))
  have minus : ∀ t, s = '-' :: t → False := by
    rintro t rfl
    exact noSign '-' (by decide) rfl
  have plus : ∀ t, s = '+' :: t → False := by
    rintro t rfl
    exact noSign '+' (by decide) rfl
  obtain ⟨n, value, bound⟩ := exists_unsigned? nonempty decimals
  have denotes : denoted? s = some (n : Int) := by
    rw [denoted?, value, Option.map_some]
    next => exact minus
    next => exact plus
  refine ⟨n, bound, denotes, ?_⟩
  split
  next ascii =>
    have digits := List.all_eq_true.mp ascii
    rw [unsigned?, if_neg nonempty, scriptValue?_of_ascii digits, Option.some.injEq] at value
    exact Numeral.saturated_short ⟨nonempty, digits, value⟩ short
  next foreign =>
    have unread : readInt? s = none := by
      rw [readInt?, readDigits?, if_neg fun ascii => foreign ascii.2]
      next => rfl
      next => exact minus
      next => exact plus
    rw [saturated, unread]
    exact if_neg (noSign '-' (by decide))

end Almanac.Text
