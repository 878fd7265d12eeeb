import Mathlib.Algebra.Group.Nat.Defs
import Almanac.Text.Digit
import Almanac.Text.Numeral

set_option autoImplicit false

/-!
# What numerals denote

A numeral of ASCII digits is read as its positional value, whatever zeros stand in front and
whatever sign, as long as a word of 64 bits holds the value; and every number has numerals.
-/

namespace Almanac.Text

variable {c : Char} {s t : List Char} {k n width : Nat}

structure Numeral (n : Nat) (s : List Char) : Prop where
  nonempty : s ≠ []
  digits : ∀ c ∈ s, c.isDigit = true
  value : positional 0 s = n

theorem isDigit_digitChar : ∀ n < 10, (Nat.digitChar n).isDigit = true := by
  decide

theorem asciiValue_digitChar : ∀ n < 10, asciiValue (Nat.digitChar n) = n := by
  decide

theorem positional_singleton (n : Nat) (c : Char) : positional n [c] = 10 * n + asciiValue c :=
  rfl

-- Unfolding would set the two values against each other before the two texts.
theorem positional_cons (n : Nat) (c : Char) (s : List Char) :
    positional n (c :: s) = positional (10 * n + asciiValue c) s := by
  rw [← List.singleton_append, positional_append, positional_singleton]

theorem numeral_decimal (n : Nat) : Numeral n (decimal n) := by
  fun_induction decimal n with
  | case1 n small =>
    refine ⟨List.cons_ne_nil _ _, List.forall_mem_singleton.mpr (isDigit_digitChar n small), ?_⟩
    rw [positional_singleton, asciiValue_digitChar n small, Nat.mul_zero, Nat.zero_add]
  | case2 n large ih =>
    have small : n % 10 < 10 := Nat.mod_lt n (by decide)
    refine ⟨List.append_ne_nil_of_right_ne_nil _ (List.cons_ne_nil _ _), ?_, ?_⟩
    next =>
      intro c member
      rcases List.mem_append.mp member with front | last
      next => exact ih.digits c front
      next =>
        rw [List.mem_singleton.mp last]
        exact isDigit_digitChar _ small
    next =>
      rw [positional_append, ih.value, positional_singleton, asciiValue_digitChar _ small]
      exact Nat.div_add_mod n 10

theorem length_decimal_le (positive : 0 < k) (h : n < 10 ^ k) : (decimal n).length ≤ k := by
  fun_induction decimal n generalizing k with
  | case1 => exact positive
  | case2 n large ih =>
    cases k with
    | zero => contradiction
    | succ k =>
      have tens : n / 10 < 10 ^ k := by
        rw [Nat.pow_succ, Nat.mul_comm] at h
        exact Nat.div_lt_of_lt_mul h
      have more : 0 < k := by
        apply Nat.pos_of_ne_zero
        rintro rfl
        omega
      rw [List.length_append, List.length_singleton]
      exact Nat.succ_le_succ (ih more tens)

theorem positional_zeros (k : Nat) (s : List Char) :
    positional 0 (List.replicate k '0' ++ s) = positional 0 s := by
  induction k with
  | zero => rfl
  | succ k ih => exact ih

theorem Numeral.padStart (h : Numeral n s) (width : Nat) : Numeral n (padStart width s) where
  nonempty := List.append_ne_nil_of_right_ne_nil _ h.nonempty
  digits := by
    intro c member
    rcases List.mem_append.mp member with zero | digit
    next =>
      rw [List.eq_of_mem_replicate zero]
      rfl
    next => exact h.digits c digit
  value := (positional_zeros _ s).trans h.value

theorem exists_numeral (positive : 0 < k) (h : n < 10 ^ k) : ∃ s, Numeral n s ∧ s.length = k := by
  have short := length_decimal_le positive h
  have length := length_padStart k (decimal n)
  exact ⟨_, (numeral_decimal n).padStart k, by omega⟩

theorem Numeral.isDecimal (h : Numeral n s) : ∀ c ∈ s, isDecimal c = true :=
  fun c member => isDecimal_of_isDigit (h.digits c member)

theorem Numeral.readDigits? (h : Numeral n s) : readDigits? s = some n := by
  have all : s.all Char.isDigit = true := List.all_eq_true.mpr h.digits
  rw [Text.readDigits?, if_pos ⟨h.nonempty, all⟩, h.value]

theorem Numeral.ne_head (h : Numeral n s) (mark : c.isDigit = false) : s.head? ≠ some c := by
  intro first
  rw [h.digits c (List.mem_of_head? first)] at mark
  cases mark

theorem Numeral.readNat? {bound : Nat} (h : Numeral n s) (fits : n ≤ bound) :
    readNat? bound s = some n := by
  have unsigned : ¬s.head? = some '+' := h.ne_head (by decide)
  rw [Text.readNat?, if_neg unsigned, h.readDigits?, Option.filter_some,
    if_pos (decide_eq_true fits)]

theorem numeral_padded (width n : Nat) : Numeral n (padded width n) := by
  rw [padded, if_neg (Int.not_lt.mpr (Int.natCast_nonneg n)), Int.natAbs_natCast]
  exact (numeral_decimal n).padStart width

theorem length_padded {width n : Nat} (positive : 0 < width) (h : n < 10 ^ width) :
    (padded width n).length = width := by
  have short := length_decimal_le positive h
  rw [padded, if_neg (Int.not_lt.mpr (Int.natCast_nonneg n)), Int.natAbs_natCast, length_padStart]
  exact Nat.max_eq_left short

theorem Numeral.readInt? (h : Numeral n s) : readInt? s = some (n : Int) := by
  unfold Text.readInt?
  split
  next => exact absurd (h.digits '-' List.mem_cons_self) (by decide)
  next => exact absurd (h.digits '+' List.mem_cons_self) (by decide)
  next => rw [h.readDigits?]; rfl

theorem saturated_of_readInt? {i : Int} (h : readInt? s = some i)
    (fits : -wordLimit - 1 ≤ i ∧ i ≤ wordLimit) : saturated s = i := by
  have within : decide (-wordLimit - 1 ≤ i ∧ i ≤ wordLimit) = true := decide_eq_true fits
  rw [saturated, h, Option.filter_some, if_pos within]

theorem Numeral.saturated (h : Numeral n s) (fits : (n : Int) ≤ wordLimit) : saturated s = n :=
  saturated_of_readInt? h.readInt? ⟨by unfold wordLimit; omega, fits⟩

theorem asciiValue_lt (h : c.isDigit = true) : asciiValue c < 10 := by
  simp only [Char.isDigit, Bool.and_eq_true, decide_eq_true_eq] at h
  have high : c.toNat ≤ 57 := h.2
  rw [asciiValue]
  omega

theorem positional_lt (digits : ∀ c ∈ s, c.isDigit = true) (n : Nat) :
    positional n s < (n + 1) * 10 ^ s.length := by
  induction s generalizing n with
  | nil =>
    rw [List.length_nil, Nat.pow_zero, Nat.mul_one]
    exact Nat.lt_succ_self n
  | cons c s ih =>
    have digit := asciiValue_lt (digits c List.mem_cons_self)
    have others := ih (fun d member => digits d (List.mem_cons_of_mem c member))
      (10 * n + asciiValue c)
    have more : 10 * n + asciiValue c + 1 ≤ (n + 1) * 10 := by omega
    rw [positional_cons, List.length_cons, Nat.pow_succ', ← Nat.mul_assoc]
    exact Nat.lt_of_lt_of_le others (Nat.mul_le_mul_right _ more)

theorem Numeral.saturated_short (h : Numeral n s) (short : s.length ≤ 18) :
    Text.saturated s = n := by
  have bound := positional_lt h.digits 0
  have power : 10 ^ s.length ≤ 10 ^ 18 := Nat.pow_le_pow_right (by decide) short
  rw [h.value, Nat.zero_add, Nat.one_mul] at bound
  have small : n < 10 ^ 18 := Nat.lt_of_lt_of_le bound power
  exact h.saturated (by unfold wordLimit; omega)

theorem Numeral.saturated_plus (h : Numeral n s) (fits : (n : Int) ≤ wordLimit) :
    Text.saturated ('+' :: s) = n := by
  have read : Text.readInt? ('+' :: s) = some (n : Int) := by
    rw [Text.readInt?, h.readDigits?]
    rfl
  exact saturated_of_readInt? read ⟨by unfold wordLimit; omega, fits⟩

theorem Numeral.saturated_minus (h : Numeral n s) (fits : (n : Int) ≤ wordLimit + 1) :
    Text.saturated ('-' :: s) = -n := by
  have read : Text.readInt? ('-' :: s) = some (-n : Int) := by
    rw [Text.readInt?, h.readDigits?]
    rfl
  exact saturated_of_readInt? read ⟨by omega, by unfold wordLimit; omega⟩

end Almanac.Text
