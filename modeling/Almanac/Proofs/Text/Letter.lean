import Almanac.Text.Digit
import Almanac.Text.Letter

set_option autoImplicit false

/-!
# Letters among other characters

No digit of any script folds to a letter, and a mark is folded from itself alone, so that the
letters of a text stand apart from its numbers and marks.
-/

namespace Almanac.Text

variable {c d : Char} {s t w : List Char}

theorem isLower_iff : c.isLower = true ↔ 97 ≤ c.toNat ∧ c.toNat ≤ 122 := by
  change (decide (97 ≤ c.toNat) && decide (c.toNat ≤ 122)) = true ↔ _
  rw [Bool.and_eq_true, decide_eq_true_eq, decide_eq_true_eq]

theorem isUpper_iff : c.isUpper = true ↔ 65 ≤ c.toNat ∧ c.toNat ≤ 90 := by
  change decide (65 ≤ c.toNat ∧ c.toNat ≤ 90) = true ↔ _
  rw [decide_eq_true_eq]

theorem isAlpha_iff : c.isAlpha = true ↔ c.isUpper = true ∨ c.isLower = true :=
  Bool.or_eq_true_iff

theorem toNat_toLower (c : Char) :
    c.toLower.toNat = if 65 ≤ c.toNat ∧ c.toNat ≤ 90 then c.toNat + 32 else c.toNat := by
  unfold Char.toLower
  by_cases upper : 65 ≤ c.toNat ∧ c.toNat ≤ 90
  next =>
    have inRange : c.val ≥ 'A'.val ∧ c.val ≤ 'Z'.val := upper
    have sum := UInt32.toNat_add c.val 32
    rw [dif_pos inRange, if_pos upper]
    change (c.val + 32).toNat = c.toNat + 32
    rw [sum]
    exact Nat.mod_eq_of_lt (show c.toNat + 32 < 4294967296 by omega)
  next =>
    have outside : ¬(c.val ≥ 'A'.val ∧ c.val ≤ 'Z'.val) := upper
    rw [dif_neg outside, if_neg upper]

theorem eq_of_toNat_eq (h : c.toNat = d.toNat) : c = d :=
  Char.ext (UInt32.toNat_inj.mp h)

theorem fold_of_isLower (lower : c.toLower.isLower = true) : fold c = c.toLower := by
  have notLong : c ≠ longS := by
    rintro rfl
    revert lower
    decide
  have notKelvin : c ≠ kelvin := by
    rintro rfl
    revert lower
    decide
  rw [fold, if_neg notLong, if_neg notKelvin]

theorem map_fold_of_lower (same : lower s = w) (lowered : w.all Char.isLower = true) :
    s.map fold = w := by
  rw [← same, lower]
  apply List.map_congr_left
  intro c member
  apply fold_of_isLower
  apply List.all_eq_true.mp lowered
  rw [← same]
  exact List.mem_map_of_mem member

theorem eq_longS_iff : c = longS ↔ c.toNat = 383 :=
  ⟨fun h => h ▸ rfl, fun h => eq_of_toNat_eq h⟩

theorem eq_kelvin_iff : c = kelvin ↔ c.toNat = 8490 :=
  ⟨fun h => h ▸ rfl, fun h => eq_of_toNat_eq h⟩

theorem isLetter_iff :
    isLetter c = true ↔ (65 ≤ c.toNat ∧ c.toNat ≤ 90) ∨ (97 ≤ c.toNat ∧ c.toNat ≤ 122) ∨
      c.toNat = 383 ∨ c.toNat = 8490 := by
  have lowered := toNat_toLower c
  unfold isLetter fold
  split
  next isLong =>
    have lower : 's'.isLower = true := by decide
    simp [eq_longS_iff.mp isLong, lower]
  next notLong =>
    split
    next isKelvin =>
      have lower : 'k'.isLower = true := by decide
      simp [eq_kelvin_iff.mp isKelvin, lower]
    next notKelvin =>
      rw [eq_longS_iff] at notLong
      rw [eq_kelvin_iff] at notKelvin
      rw [isLower_iff, lowered]
      split <;> omega

theorem isLetter_of_isLower (h : c.isLower = true) : isLetter c = true :=
  isLetter_iff.mpr (.inr (.inl (isLower_iff.mp h)))

theorem fold_of_not_isLetter (h : isLetter c = false) : fold c = c := by
  have lowered := toNat_toLower c
  rw [← Bool.not_eq_true, isLetter_iff] at h
  have notLong : c ≠ longS := by rw [Ne, eq_longS_iff]; omega
  have notKelvin : c ≠ kelvin := by rw [Ne, eq_kelvin_iff]; omega
  rw [fold, if_neg notLong, if_neg notKelvin]
  apply eq_of_toNat_eq
  rw [lowered, if_neg (by omega)]

theorem eq_of_fold_eq (h : fold c = d) (mark : d.isLower = false) : c = d := by
  have notLetter : isLetter c = false := by rw [isLetter, h, mark]
  rw [← h, fold_of_not_isLetter notLetter]

-- The runs of digits leave out the letters of ASCII, the long s and the Kelvin sign.
theorem isLetter_of_isDecimal (h : isDecimal c = true) : isLetter c = false := by
  have apart : ∀ z ∈ zeros, (z + 10 ≤ 65 ∨ 123 ≤ z) ∧ (z + 10 ≤ 383 ∨ 384 ≤ z) ∧
      (z + 10 ≤ 8490 ∨ 8491 ≤ z) := by
    decide
  obtain ⟨n, value⟩ := Option.isSome_iff_exists.mp h
  obtain ⟨z, found, -⟩ := Option.map_eq_some_iff.mp value
  have run := List.find?_some found
  have away := apart z (List.mem_of_find?_eq_some found)
  simp only [Bool.and_eq_true, decide_eq_true_eq] at run
  rw [← Bool.not_eq_true, isLetter_iff]
  omega

theorem isDecimal_of_isLetter (h : isLetter c = true) : isDecimal c = false := by
  cases decimal : isDecimal c with
  | false => rfl
  | true =>
    rw [isLetter_of_isDecimal decimal] at h
    exact h.symm

/-- The text has a letter that is folded to one of ASCII and not lowered to it. -/
def Disguised (s : List Char) : Prop :=
  longS ∈ s ∨ kelvin ∈ s

theorem map_fold_eq_lower (plain : ¬Disguised s) : s.map fold = lower s := by
  apply List.map_congr_left
  intro c member
  have notLong : c ≠ longS := fun same => plain (.inl (same ▸ member))
  have notKelvin : c ≠ kelvin := fun same => plain (.inr (same ▸ member))
  rw [fold, if_neg notLong, if_neg notKelvin]

theorem lower_ne_of_disguised (h : Disguised s) (lowered : w.all Char.isLower = true) :
    lower s ≠ w := by
  rintro rfl
  have small {c : Char} (member : c ∈ s) : c.toLower.isLower = true :=
    List.all_eq_true.mp lowered _ (List.mem_map_of_mem member)
  rcases h with long | sign
  next =>
    have other : longS.toLower.isLower = false := by decide
    exact Bool.false_ne_true (other.symm.trans (small long))
  next =>
    have other : kelvin.toLower.isLower = false := by decide
    exact Bool.false_ne_true (other.symm.trans (small sign))

theorem Disguised.of_infix (h : Disguised s) (inside : s <:+: t) : Disguised t :=
  h.imp (fun long => inside.mem long) fun sign => inside.mem sign

def lettersOf (s : List Char) : List Char :=
  (s.map fold).filter Char.isLower

theorem lettersOf_append (s t : List Char) : lettersOf (s ++ t) = lettersOf s ++ lettersOf t := by
  rw [lettersOf, List.map_append, List.filter_append, lettersOf, lettersOf]

theorem lettersOf_eq_nil_iff : lettersOf s = [] ↔ ∀ c ∈ s, isLetter c = false := by
  simp only [lettersOf, List.filter_eq_nil_iff, List.forall_mem_map, Bool.not_eq_true, isLetter]

theorem lettersOf_of_decimals (digits : ∀ c ∈ s, isDecimal c = true) : lettersOf s = [] :=
  lettersOf_eq_nil_iff.mpr fun c member => isLetter_of_isDecimal (digits c member)

theorem lettersOf_of_folded (folded : s.map fold = w) (lower : w.all Char.isLower = true) :
    lettersOf s = w := by
  rw [lettersOf, folded]
  exact List.filter_eq_self.mpr (List.all_eq_true.mp lower)

end Almanac.Text
