import Almanac.Proofs.Text.Pattern

set_option autoImplicit false

/-!
# Outlines of texts

An outline keeps of a text its letters in order, the number of its digits and the number of its
other marks. The texts that a pattern takes have finitely many outlines between them, so that two
patterns can be told apart without looking at a text.
-/

namespace Almanac.Text

structure Amount where
  least : Nat
  more : Bool
  deriving DecidableEq, Repr

namespace Amount

variable {a b : Amount} {m n : Nat}

structure Allows (a : Amount) (n : Nat) : Prop where
  least : a.least ≤ n
  exact : a.more = false → n = a.least

def exactly (n : Nat) : Amount :=
  ⟨n, false⟩

def any : Amount :=
  ⟨0, true⟩

theorem exactly_allows (h : m = n) : (exactly n).Allows m :=
  ⟨Nat.le_of_eq h.symm, fun _ => h⟩

theorem any_allows (n : Nat) : any.Allows n :=
  ⟨Nat.zero_le n, nofun⟩

def add (a b : Amount) : Amount :=
  ⟨a.least + b.least, a.more || b.more⟩

def meets : Amount → Amount → Bool
  | ⟨m, false⟩, ⟨n, false⟩ => m.beq n
  | ⟨m, true⟩, ⟨n, false⟩ => m.ble n
  | ⟨m, false⟩, ⟨n, true⟩ => n.ble m
  | ⟨_, true⟩, ⟨_, true⟩ => true

theorem Allows.add (ha : a.Allows m) (hb : b.Allows n) : (a.add b).Allows (m + n) where
  least := Nat.add_le_add ha.least hb.least
  exact := by
    intro both
    obtain ⟨left, right⟩ := Bool.or_eq_false_iff.mp both
    rw [ha.exact left, hb.exact right, Amount.add]

theorem meets_of_allows (ha : a.Allows n) (hb : b.Allows n) : a.meets b = true := by
  rcases a with ⟨l, openLeft⟩
  rcases b with ⟨r, openRight⟩
  cases openLeft with
  | false =>
    obtain rfl : n = l := ha.exact rfl
    cases openRight with
    | false => exact Nat.beq_eq.mpr (hb.exact rfl)
    | true => exact Nat.ble_eq.mpr hb.least
  | true =>
    cases openRight with
    | false =>
      obtain rfl : n = r := hb.exact rfl
      exact Nat.ble_eq.mpr ha.least
    | true => rfl

end Amount

def isMark (c : Char) : Bool :=
  !isLetter c && !isDecimal c

theorem isMark_of_isLetter {c : Char} (h : isLetter c = true) : isMark c = false := by
  rw [isMark, h]
  rfl

theorem isMark_of_isDecimal {c : Char} (h : isDecimal c = true) : isMark c = false := by
  rw [isMark, h, Bool.not_true, Bool.and_false]

/-- The letters that a text has, or that it has first when there may be more, and its digits and
marks. -/
structure Outline where
  letters : List Char
  more : Bool
  digits : Amount
  marks : Amount
  deriving DecidableEq, Repr

namespace Outline

variable {a b : Outline} {s t : List Char} {c d : Char}

structure Fits (o : Outline) (s : List Char) : Prop where
  first : o.letters <+: lettersOf s
  whole : o.more = false → lettersOf s = o.letters
  digits : o.digits.Allows (s.countP isDecimal)
  marks : o.marks.Allows (s.countP isMark)

def nothing : Outline :=
  ⟨[], false, .exactly 0, .exactly 0⟩

def anything : Outline :=
  ⟨[], true, .any, .any⟩

def oneLetter (d : Char) : Outline :=
  ⟨[d], false, .exactly 0, .exactly 0⟩

def oneDigit : Outline :=
  ⟨[], false, .exactly 1, .exactly 0⟩

def oneMark : Outline :=
  ⟨[], false, .exactly 0, .exactly 1⟩

def anyLetters : Outline :=
  ⟨[], true, .exactly 0, .exactly 0⟩

def anyDigits : Outline :=
  ⟨[], false, .any, .exactly 0⟩

-- Letters that may follow hide the letters of all that comes after them.
def append (a b : Outline) : Outline :=
  ⟨if a.more then a.letters else a.letters ++ b.letters, a.more || b.more, a.digits.add b.digits,
    a.marks.add b.marks⟩

def meets (a b : Outline) : Bool :=
  a.digits.meets b.digits && a.marks.meets b.marks &&
    match a.more, b.more with
    | false, false => a.letters == b.letters
    | true, false => a.letters.isPrefixOf b.letters
    | false, true => b.letters.isPrefixOf a.letters
    | true, true => a.letters.isPrefixOf b.letters || b.letters.isPrefixOf a.letters

theorem fits_nothing : nothing.Fits [] :=
  ⟨List.nil_prefix, fun _ => rfl, Amount.exactly_allows rfl, Amount.exactly_allows rfl⟩

theorem fits_anything (s : List Char) : anything.Fits s :=
  ⟨List.nil_prefix, nofun, Amount.any_allows _, Amount.any_allows _⟩

theorem fits_anyLetters (all : ∀ c ∈ s, isLetter c = true) : anyLetters.Fits s :=
  ⟨List.nil_prefix, nofun,
    Amount.exactly_allows (List.countP_eq_zero.mpr fun c member =>
      Bool.eq_false_iff.mp (isDecimal_of_isLetter (all c member))),
    Amount.exactly_allows (List.countP_eq_zero.mpr fun c member =>
      Bool.eq_false_iff.mp (isMark_of_isLetter (all c member)))⟩

theorem countP_isMark_of_decimals (all : ∀ c ∈ s, isDecimal c = true) : s.countP isMark = 0 :=
  List.countP_eq_zero.mpr fun c member => Bool.eq_false_iff.mp (isMark_of_isDecimal (all c member))

theorem fits_anyDigits (all : ∀ c ∈ s, isDecimal c = true) : anyDigits.Fits s :=
  ⟨List.nil_prefix, fun _ => lettersOf_of_decimals all, Amount.any_allows _,
    Amount.exactly_allows (countP_isMark_of_decimals all)⟩

theorem fits_oneDigit (h : isDecimal c = true) : oneDigit.Fits [c] := by
  have digits : [c].countP isDecimal = 1 := by rw [List.countP_singleton, h]; rfl
  have marks : [c].countP isMark = 0 := by
    rw [List.countP_singleton, isMark_of_isDecimal h]
    rfl
  exact ⟨List.nil_prefix, fun _ => lettersOf_of_decimals (List.forall_mem_singleton.mpr h),
    Amount.exactly_allows digits, Amount.exactly_allows marks⟩

theorem fits_oneLetter (h : fold c = d) (lower : d.isLower = true) : (oneLetter d).Fits [c] := by
  have letter : isLetter c = true := by rw [isLetter, h, lower]
  have found : lettersOf [c] = [d] := lettersOf_of_folded (congrArg (fun x => [x]) h)
    (List.all_eq_true.mpr (List.forall_mem_singleton.mpr lower))
  have digits : [c].countP isDecimal = 0 := by
    rw [List.countP_singleton, isDecimal_of_isLetter letter]
    rfl
  have marks : [c].countP isMark = 0 := by
    rw [List.countP_singleton, isMark_of_isLetter letter]
    rfl
  exact ⟨found ▸ List.prefix_rfl, fun _ => found, Amount.exactly_allows digits,
    Amount.exactly_allows marks⟩

theorem fits_oneMark (letter : isLetter c = false) (decimal : isDecimal c = false) :
    oneMark.Fits [c] := by
  have digits : [c].countP isDecimal = 0 := by rw [List.countP_singleton, decimal]; rfl
  have marks : [c].countP isMark = 1 := by
    rw [List.countP_singleton, isMark, letter, decimal]
    rfl
  exact ⟨List.nil_prefix, fun _ => lettersOf_eq_nil_iff.mpr (List.forall_mem_singleton.mpr letter),
    Amount.exactly_allows digits, Amount.exactly_allows marks⟩

def ofFolded (d : Char) : Outline :=
  if d.isLower then oneLetter d else if isDecimal d then oneDigit else oneMark

theorem fits_ofFolded (h : fold c = d) : (ofFolded d).Fits [c] := by
  unfold ofFolded
  split
  next lower => exact fits_oneLetter h lower
  next notLower =>
    rw [Bool.not_eq_true] at notLower
    obtain rfl := eq_of_fold_eq h notLower
    split
    next decimal => exact fits_oneDigit decimal
    next notDecimal =>
      rw [Bool.not_eq_true] at notDecimal
      exact fits_oneMark (by rw [isLetter, h, notLower]) notDecimal

theorem Fits.append (ha : a.Fits s) (hb : b.Fits t) : (a.append b).Fits (s ++ t) := by
  have digits := ha.digits.add hb.digits
  have marks := ha.marks.add hb.marks
  rw [← List.countP_append] at digits marks
  refine ⟨?_, ?_, digits, marks⟩
  next =>
    rw [lettersOf_append, Outline.append]
    cases open' : a.more with
    | true => exact ha.first.trans (List.prefix_append _ _)
    | false =>
      rw [ha.whole open']
      exact (List.prefix_append_right_inj _).mpr hb.first
  next =>
    intro both
    obtain ⟨left, right⟩ := Bool.or_eq_false_iff.mp both
    rw [lettersOf_append, ha.whole left, hb.whole right, Outline.append, left]
    rfl

theorem meets_of_fits (ha : a.Fits s) (hb : b.Fits s) : a.meets b = true := by
  rw [meets, Amount.meets_of_allows ha.digits hb.digits, Amount.meets_of_allows ha.marks hb.marks]
  cases openLeft : a.more with
  | false =>
    have left := ha.whole openLeft
    cases openRight : b.more with
    | false => exact beq_iff_eq.mpr (left.symm.trans (hb.whole openRight))
    | true => exact List.isPrefixOf_iff_prefix.mpr (left ▸ hb.first)
  | true =>
    cases openRight : b.more with
    | false => exact List.isPrefixOf_iff_prefix.mpr (hb.whole openRight ▸ ha.first)
    | true =>
      simp only [Bool.and_self, Bool.true_and, Bool.or_eq_true, List.isPrefixOf_iff_prefix]
      exact List.prefix_or_prefix_of_prefix ha.first hb.first

end Outline

def Class.outlines : Class → List Outline
  | .blank => [.anything]
  | .decimal => [.oneDigit]
  | .letter => [.anyLetters]
  | .among chars => (chars.map Outline.ofFolded).eraseDups

def Class.runOutline : Class → Outline
  | .decimal => .anyDigits
  | .letter => .anyLetters
  | .blank | .among _ => .anything

theorem Class.exists_outline {k : Class} {c : Char} (h : k.has c = true) :
    ∃ o ∈ k.outlines, o.Fits [c] := by
  cases k with
  | blank => exact ⟨_, List.mem_singleton_self _, Outline.fits_anything _⟩
  | decimal => exact ⟨_, List.mem_singleton_self _, Outline.fits_oneDigit h⟩
  | letter =>
    exact ⟨_, List.mem_singleton_self _, Outline.fits_anyLetters (List.forall_mem_singleton.mpr h)⟩
  | among chars =>
    have member : Outline.ofFolded (fold c) ∈ chars.map Outline.ofFolded :=
      List.mem_map_of_mem (Pattern.has_among.mp h)
    exact ⟨_, List.mem_eraseDups.mpr member, Outline.fits_ofFolded rfl⟩

theorem Class.fits_runOutline {k : Class} {s : List Char} (h : ∀ c ∈ s, k.has c = true) :
    k.runOutline.Fits s := by
  cases k with
  | decimal => exact Outline.fits_anyDigits h
  | letter => exact Outline.fits_anyLetters h
  | blank | among => exact Outline.fits_anything s

namespace Pattern

variable {Name : Type} {p q : Pattern Name} {s : List Char} {f g : Fields Name}

def outlines : Pattern Name → List Outline
  | .empty => [.nothing]
  | .one k => k.outlines
  | .many k => [k.runOutline]
  | .seq p q => p.outlines.flatMap fun a => q.outlines.map a.append
  | .alt p q => p.outlines ++ q.outlines
  | .field _ p => p.outlines

theorem exists_outline (m : Matches p s f) : ∃ o ∈ p.outlines, o.Fits s := by
  induction m with
  | empty => exact ⟨_, List.mem_singleton_self _, Outline.fits_nothing⟩
  | one inside => exact Class.exists_outline inside
  | many all => exact ⟨_, List.mem_singleton_self _, Class.fits_runOutline all⟩
  | @seq p q _ _ _ _ _ _ first second =>
    obtain ⟨a, ofFirst, fitsFirst⟩ := first
    obtain ⟨b, ofSecond, fitsSecond⟩ := second
    have member : a.append b ∈ p.outlines.flatMap fun a => q.outlines.map a.append :=
      List.mem_flatMap.mpr ⟨a, ofFirst, List.mem_map_of_mem ofSecond⟩
    exact ⟨a.append b, member, fitsFirst.append fitsSecond⟩
  | left _ taken =>
    obtain ⟨o, member, fits⟩ := taken
    exact ⟨o, List.mem_append_left _ member, fits⟩
  | right _ taken =>
    obtain ⟨o, member, fits⟩ := taken
    exact ⟨o, List.mem_append_right _ member, fits⟩
  | field _ _ taken => exact taken

def apart (p q : Pattern Name) : Bool :=
  p.outlines.all fun a => q.outlines.all fun b => !a.meets b

theorem not_matches_of_apart (h : p.apart q = true) (m : Matches p s f) : ¬Matches q s g := by
  intro m'
  obtain ⟨a, ofFirst, fitsFirst⟩ := exists_outline m
  obtain ⟨b, ofSecond, fitsSecond⟩ := exists_outline m'
  have never := List.all_eq_true.mp (List.all_eq_true.mp h a ofFirst) b ofSecond
  rw [Outline.meets_of_fits fitsFirst fitsSecond] at never
  exact Bool.false_ne_true never

end Pattern

end Almanac.Text
