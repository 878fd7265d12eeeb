import Almanac.Proofs.Text.Blank
import Almanac.Proofs.Text.Pattern
import Almanac.Text.Numeral

set_option autoImplicit false

/-!
# Texts in lower case

Patterns compare letters without regard to case, and neither blanks nor digits have any. What a
pattern takes of a text, it takes of the text in lower case too, and the fields it cuts out are the
same but for their case.
-/

namespace Almanac.Text

variable {c : Char} {s : List Char}

theorem toLower_eq_self (h : ¬(65 ≤ c.toNat ∧ c.toNat ≤ 90)) : c.toLower = c := by
  apply eq_of_toNat_eq
  rw [toNat_toLower, if_neg h]

theorem isLower_toLower (capital : 65 ≤ c.toNat ∧ c.toNat ≤ 90) : c.toLower.isLower = true := by
  rw [isLower_iff, toNat_toLower, if_pos capital]
  omega

theorem toLower_of_isLower (h : c.isLower = true) : c.toLower = c := by
  have small := isLower_iff.mp h
  exact toLower_eq_self (by omega)

theorem toLower_toLower (c : Char) : c.toLower.toLower = c.toLower := by
  by_cases capital : 65 ≤ c.toNat ∧ c.toNat ≤ 90
  next => exact toLower_of_isLower (isLower_toLower capital)
  next => rw [toLower_eq_self capital, toLower_eq_self capital]

theorem lower_lower (s : List Char) : lower (lower s) = lower s := by
  simp only [lower, List.map_map]
  exact List.map_congr_left fun c _ => toLower_toLower c

theorem lower_append (s t : List Char) : lower (s ++ t) = lower s ++ lower t :=
  List.map_append

theorem take_lower (n : Nat) (s : List Char) : (lower s).take n = lower (s.take n) :=
  List.map_take.symm

theorem fold_toLower (c : Char) : fold c.toLower = fold c := by
  by_cases capital : 65 ≤ c.toNat ∧ c.toNat ≤ 90
  next =>
    have small := isLower_toLower capital
    have again := toLower_toLower c
    rw [fold_of_isLower small, fold_of_isLower (again.symm ▸ small), again]
  next => rw [toLower_eq_self capital]

theorem isLetter_toLower (c : Char) : isLetter c.toLower = isLetter c := by
  rw [isLetter, fold_toLower, isLetter]

theorem toLower_of_not_isLetter (h : isLetter c = false) : c.toLower = c := by
  have outside : ¬(65 ≤ c.toNat ∧ c.toNat ≤ 90) := fun capital =>
    Bool.false_ne_true (h.symm.trans (isLetter_iff.mpr (.inl capital)))
  exact toLower_eq_self outside

theorem toLower_of_apart {p : Char → Bool} (apart : ∀ {c}, isLetter c = true → p c = false)
    (c : Char) : p c.toLower = p c := by
  cases letter : isLetter c with
  | true => rw [apart letter, apart ((isLetter_toLower c).trans letter)]
  | false => rw [toLower_of_not_isLetter letter]

theorem isBlank_toLower (c : Char) : isBlank c.toLower = isBlank c :=
  toLower_of_apart not_isBlank_of_isLetter c

theorem isDecimal_toLower (c : Char) : isDecimal c.toLower = isDecimal c :=
  toLower_of_apart isDecimal_of_isLetter c

theorem has_toLower (k : Class) (c : Char) : k.has c.toLower = k.has c := by
  cases k with
  | blank => exact isBlank_toLower c
  | decimal => exact isDecimal_toLower c
  | letter => exact isLetter_toLower c
  | among chars => rw [Class.has, fold_toLower, Class.has]

theorem dropBlanks_lower (s : List Char) :
    (lower s).dropWhile isBlank = lower (s.dropWhile isBlank) := by
  have same : isBlank ∘ Char.toLower = isBlank := funext isBlank_toLower
  rw [lower, List.dropWhile_map, same, lower]

theorem trimEnd_lower (s : List Char) : trimEnd (lower s) = lower (trimEnd s) := by
  have reversed : (lower s).reverse = lower s.reverse := List.map_reverse.symm
  rw [trimEnd, reversed, dropBlanks_lower, trimEnd, lower, lower, List.map_reverse]

theorem trim_lower (s : List Char) : trim (lower s) = lower (trim s) := by
  rw [trim, trimStart, dropBlanks_lower, trimEnd_lower, trim, trimStart]

theorem spaced_lower (owed : Bool) (s : List Char) :
    spaced owed (lower s) = lower (spaced owed s) := by
  have space : ' '.toLower = ' ' := by decide
  induction s generalizing owed with
  | nil => rw [lower_nil, spaced_nil, lower_nil]
  | cons c s ih =>
    rw [lower_cons, spaced, isBlank_toLower, spaced]
    split
    next => exact ih true
    next =>
      split
      next => rw [ih, lower_cons, lower_cons, space]
      next => rw [ih, lower_cons]

theorem squeeze_lower (s : List Char) : squeeze (lower s) = lower (squeeze s) := by
  rw [squeeze, trimStart, dropBlanks_lower, spaced_lower, squeeze, trimStart]

theorem isDigit_toLower (c : Char) : c.toLower.isDigit = c.isDigit := by
  refine toLower_of_apart (fun {d} letter => ?_) c
  cases digit : d.isDigit with
  | false => rfl
  | true => exact (isDecimal_of_isDigit digit).symm.trans (isDecimal_of_isLetter letter)

theorem lower_of_digits (digits : s.all Char.isDigit = true) : lower s = s := by
  refine (List.map_congr_left ?_).trans (List.map_id s)
  intro c member
  have digit := List.all_eq_true.mp digits c member
  exact toLower_of_not_isLetter (isLetter_of_isDecimal (isDecimal_of_isDigit digit))

theorem readDigits?_lower (s : List Char) : readDigits? (lower s) = readDigits? s := by
  have digits : (lower s).all Char.isDigit = s.all Char.isDigit := by
    rw [lower, List.all_map]
    exact congrArg s.all (funext isDigit_toLower)
  cases all : s.all Char.isDigit with
  | true => rw [lower_of_digits all]
  | false =>
    have notDigits : ¬s.all Char.isDigit = true := Bool.eq_false_iff.mp all
    rw [readDigits?, digits, if_neg fun read => notDigits read.2, readDigits?,
      if_neg fun read => notDigits read.2]

theorem toLower_eq_mark_iff {mark : Char} (h : isLetter mark = false) :
    c.toLower = mark ↔ c = mark := by
  constructor
  next =>
    rintro rfl
    exact (toLower_of_not_isLetter ((isLetter_toLower c).symm.trans h)).symm
  next =>
    rintro rfl
    exact toLower_of_not_isLetter h

theorem head?_lower {mark : Char} (h : isLetter mark = false) :
    (lower s).head? = some mark ↔ s.head? = some mark := by
  cases s with
  | nil => exact Iff.rfl
  | cons c s => simp only [lower_cons, List.head?_cons, Option.some.injEq, toLower_eq_mark_iff h]

theorem getLast?_lower {mark : Char} (h : isLetter mark = false) :
    (lower s).getLast? = some mark ↔ s.getLast? = some mark := by
  rw [List.getLast?_eq_head?_reverse, List.getLast?_eq_head?_reverse, lower, ← List.map_reverse,
    ← lower, head?_lower h]

theorem readInt?_unsigned (notMinus : s.head? ≠ some '-') (notPlus : s.head? ≠ some '+') :
    readInt? s = (readDigits? s).map fun n => (n : Int) := by
  unfold readInt?
  split
  next => exact absurd rfl notMinus
  next => exact absurd rfl notPlus
  next => rfl

theorem readInt?_lower (s : List Char) : readInt? (lower s) = readInt? s := by
  have minus : isLetter '-' = false := by decide
  have plus : isLetter '+' = false := by decide
  by_cases isMinus : s.head? = some '-'
  next =>
    obtain ⟨t, rfl⟩ := List.head?_eq_some_iff.mp isMinus
    rw [lower_cons, toLower_of_not_isLetter minus, readInt?, readDigits?_lower, readInt?]
  next =>
    by_cases isPlus : s.head? = some '+'
    next =>
      obtain ⟨t, rfl⟩ := List.head?_eq_some_iff.mp isPlus
      rw [lower_cons, toLower_of_not_isLetter plus, readInt?, readDigits?_lower, readInt?]
    next =>
      rw [readInt?_unsigned (isMinus ∘ (head?_lower minus).mp) (isPlus ∘ (head?_lower plus).mp),
        readDigits?_lower, readInt?_unsigned isMinus isPlus]

theorem saturated_lower (s : List Char) : saturated (lower s) = saturated s := by
  have minus : isLetter '-' = false := by decide
  simp only [saturated, readInt?_lower, head?_lower minus]

namespace Pattern

variable {Name : Type}

def lowered (f : Fields Name) : Fields Name :=
  f.map fun cut => (cut.1, lower cut.2)

theorem lookup_lowered [BEq Name] (f : Fields Name) (name : Name) :
    (lowered f).lookup name = (f.lookup name).map lower := by
  induction f with
  | nil => rfl
  | cons cut f ih =>
    obtain ⟨other, s⟩ := cut
    rw [lowered, List.map_cons, List.lookup_cons, List.lookup_cons]
    cases name == other with
    | true => rfl
    | false => exact ih

end Pattern

def Taken.lowered {Name : Type} (a : Taken Name) : Taken Name :=
  ⟨lower a.taken, Pattern.lowered a.fields, lower a.rest⟩

theorem runs_lower (k : Class) (s : List Char) :
    runs k (lower s) = (runs k s).map fun r => (lower r.1, lower r.2) := by
  induction s with
  | nil => rfl
  | cons c s ih =>
    rw [lower_cons, runs, has_toLower, ih, runs]
    split
    next => simp [Function.comp_def]
    next => simp

namespace Pattern

variable {Name : Type}

theorem run_lower (p : Pattern Name) (s : List Char) :
    p.run (lower s) = (p.run s).map Taken.lowered := by
  induction p generalizing s with
  | empty => rfl
  | one k =>
    cases s with
    | nil => rfl
    | cons c s =>
      rw [lower_cons, run, has_toLower, run]
      split
      next => rfl
      next => rfl
  | many k => simp [run, runs_lower, Taken.lowered, lowered, Function.comp_def]
  | seq p q first second =>
    simp [run, first, second, Taken.lowered, lowered, lower_append, List.flatMap_map,
      List.map_flatMap, Function.comp_def]
  | alt p q first second => simp [run, first, second]
  | field name p taken => simp [run, taken, Taken.lowered, lowered, Function.comp_def]

theorem match?_lower (p : Pattern Name) (s : List Char) :
    p.match? (lower s) = (p.match? s).map lowered := by
  have done : (fun a : Taken Name => a.rest.isEmpty) ∘ Taken.lowered = fun a => a.rest.isEmpty :=
    funext fun a => List.isEmpty_map
  rw [match?, run_lower, List.find?_map, done, Option.map_map, match?, Option.map_map]
  rfl

end Pattern

end Almanac.Text
