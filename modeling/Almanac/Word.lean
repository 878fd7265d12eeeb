import Almanac.Date.Shift

set_option autoImplicit false

/-!
# Machine words

Sums, differences and products, and quotients and remainders by a division that cuts toward zero,
each of which fails when its result does not fit a signed word of 32 bits. Months and days have to
fit a byte.
-/

namespace Almanac.Word

def fit? (n : Int) : Option Int :=
  if Date.IsWord n then some n else none

def byte? (n : Int) : Option Nat :=
  if 0 ≤ n ∧ n < 256 then some n.toNat else none

def add? (a b : Int) : Option Int := fit? (a + b)
def sub? (a b : Int) : Option Int := fit? (a - b)
def mul? (a b : Int) : Option Int := fit? (a * b)
def div? (a b : Int) : Option Int := fit? (a.tdiv b)
def rem? (a b : Int) : Option Int := fit? (a.tmod b)

def addByte? (a b : Nat) : Option Nat := byte? (a + b)
def subByte? (a b : Nat) : Option Nat := byte? (a - b)

variable {a b n : Int}

theorem fit?_eq (low : -2147483648 ≤ n) (high : n < 2147483648) : fit? n = some n :=
  if_pos ⟨low, high⟩

theorem fit?_eq_some_iff {m : Int} : fit? n = some m ↔ Date.IsWord n ∧ n = m := by
  simp [fit?]

theorem byte?_eq (low : 0 ≤ n) (high : n < 256) : byte? n = some n.toNat :=
  if_pos ⟨low, high⟩

theorem add?_eq (low : -2147483648 ≤ a + b) (high : a + b < 2147483648) :
    add? a b = some (a + b) :=
  fit?_eq low high

theorem sub?_eq (low : -2147483648 ≤ a - b) (high : a - b < 2147483648) :
    sub? a b = some (a - b) :=
  fit?_eq low high

theorem mul?_eq (low : -2147483648 ≤ a * b) (high : a * b < 2147483648) :
    mul? a b = some (a * b) :=
  fit?_eq low high

theorem addByte?_eq {a b : Nat} (high : a + b < 256) : addByte? a b = some (a + b) :=
  byte?_eq (by omega) (by omega)

theorem subByte?_eq {a b : Nat} (low : b ≤ a) (high : a < 256) : subByte? a b = some (a - b) := by
  rw [subByte?, byte?_eq (by omega) (by omega)]
  congr 1
  omega

theorem div?_eq (low : 0 ≤ a) (high : a < 2147483648) (positive : 0 < b) :
    div? a b = some (a / b) := by
  have smaller := Int.ediv_le_self b low
  have nonneg := Int.ediv_nonneg low (Int.le_of_lt positive)
  rw [div?, Int.tdiv_eq_ediv_of_nonneg low]
  exact fit?_eq (by omega) (by omega)

theorem rem?_eq (low : 0 ≤ a) (positive : 0 < b) (small : b < 2147483648) :
    rem? a b = some (a % b) := by
  have nonneg := Int.emod_nonneg a (Int.ne_of_gt positive)
  have short := Int.emod_lt_of_pos a positive
  rw [rem?, Int.tmod_eq_emod_of_nonneg low]
  exact fit?_eq (by omega) (by omega)

-- `Option.bind_some` holds by unfolding alone, and unfolding would reach the bounds of the words.
theorem some_bind_eq {α β : Type} (a : α) (f : α → Option β) : (some a >>= f) = f a := by
  simp

end Almanac.Word
