import Almanac.Holiday.Calendar

set_option autoImplicit false

/-!
# Tallies of days

The days with a property are counted over ranges of dates, and the counts add up.
-/

namespace Almanac

namespace Date

theorem mem_range {first last x : Date} : x ∈ range first last ↔ first ≤ x ∧ x ≤ last := by
  simp only [range, List.mem_map, List.mem_range, le_def]
  constructor
  next =>
    rintro ⟨i, inRange, rfl⟩
    simp only
    omega
  next =>
    rintro ⟨low, high⟩
    exact ⟨(x.serial - first.serial).toNat, by omega, ext (by simp only; omega)⟩

theorem length_range (first last : Date) :
    (range first last).length = (last.serial - first.serial + 1).toNat := by
  simp [range]

theorem range_append {a b c : Int} (first : a ≤ b) (second : b ≤ c) :
    range ⟨a + 1⟩ ⟨b⟩ ++ range ⟨b + 1⟩ ⟨c⟩ = range ⟨a + 1⟩ ⟨c⟩ := by
  unfold range
  dsimp only
  rw [show (c - (a + 1) + 1).toNat = (b - (a + 1) + 1).toNat + (c - (b + 1) + 1).toNat by omega,
    List.range_add, List.map_append, List.map_map]
  congr 1
  apply List.map_congr_left
  intro i member
  apply ext
  simp only [Function.comp_apply]
  omega

end Date

variable {p : Date → Bool} {a b c : Int}

def tally (p : Date → Bool) (a b : Int) : Nat :=
  (Date.range ⟨a + 1⟩ ⟨b⟩).countP p

theorem tally_add (first : a ≤ b) (second : b ≤ c) :
    tally p a b + tally p b c = tally p a c := by
  rw [tally, tally, tally, ← Date.range_append first second, List.countP_append]

theorem tally_eq_zero (none : ∀ s, a < s → s ≤ b → p ⟨s⟩ = false) : tally p a b = 0 := by
  rw [tally, List.countP_eq_zero]
  intro x member
  obtain ⟨low, high⟩ := Date.mem_range.mp member
  rw [none x.serial low high]
  exact Bool.false_ne_true

theorem tally_day (p : Date → Bool) (b : Int) :
    tally p (b - 1) b = if p ⟨b⟩ then 1 else 0 := by
  have only : Date.range ⟨b - 1 + 1⟩ ⟨b⟩ = [⟨b⟩] := by
    simp [Date.range]
  rw [tally, only, List.countP_singleton]

theorem tally_one (has : p ⟨b⟩ = true) : tally p (b - 1) b = 1 := by
  rw [tally_day, if_pos has]

theorem tally_le (h : a ≤ b) : (tally p a b : Int) ≤ b - a := by
  have most := @List.countP_le_length _ p (Date.range ⟨a + 1⟩ ⟨b⟩)
  rw [Date.length_range] at most
  unfold tally
  dsimp only at most
  omega

end Almanac
