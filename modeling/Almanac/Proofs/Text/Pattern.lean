import Almanac.Proofs.Text.Letter
import Almanac.Text.Pattern

set_option autoImplicit false

/-!
# What patterns take

What a text must be for a pattern to take it, one statement for each way to build a pattern; and
when a text settles the fields that are cut out of it, so that it does not matter which way of
taking it comes first.
-/

namespace Almanac.Text.Pattern

variable {Name : Type} {p q : Pattern Name} {k : Class} {s t u : List Char} {f g : Fields Name}

theorem matches_empty : Matches (.empty : Pattern Name) s f ↔ s = [] ∧ f = [] := by
  constructor
  next =>
    intro m
    cases m
    exact ⟨rfl, rfl⟩
  next =>
    rintro ⟨rfl, rfl⟩
    exact .empty

theorem matches_one :
    Matches (.one k : Pattern Name) s f ↔ ∃ c, k.has c = true ∧ s = [c] ∧ f = [] := by
  constructor
  next =>
    intro m
    cases m with
    | one inside => exact ⟨_, inside, rfl, rfl⟩
  next =>
    rintro ⟨c, inside, rfl, rfl⟩
    exact .one inside

theorem matches_many :
    Matches (.many k : Pattern Name) s f ↔ (∀ c ∈ s, k.has c = true) ∧ f = [] := by
  constructor
  next =>
    intro m
    cases m with
    | many all => exact ⟨all, rfl⟩
  next =>
    rintro ⟨all, rfl⟩
    exact .many all

theorem matches_seq :
    Matches (.seq p q) s f ↔ ∃ s₁ f₁ s₂ f₂, Matches p s₁ f₁ ∧ Matches q s₂ f₂ ∧
      s = s₁ ++ s₂ ∧ f = f₁ ++ f₂ := by
  constructor
  next =>
    intro m
    cases m with
    | seq first second => exact ⟨_, _, _, _, first, second, rfl, rfl⟩
  next =>
    rintro ⟨s₁, f₁, s₂, f₂, first, second, rfl, rfl⟩
    exact .seq first second

theorem matches_alt : Matches (.alt p q) s f ↔ Matches p s f ∨ Matches q s f := by
  constructor
  next =>
    intro m
    cases m with
    | left m => exact .inl m
    | right m => exact .inr m
  next =>
    rintro (m | m)
    next => exact .left m
    next => exact .right m

theorem matches_field {name : Name} :
    Matches (.field name p) s f ↔ ∃ g, Matches p s g ∧ f = (name, s) :: g := by
  constructor
  next =>
    intro m
    cases m with
    | field _ m => exact ⟨_, m, rfl⟩
  next =>
    rintro ⟨g, m, rfl⟩
    exact .field name m

theorem matches_opt : Matches (opt p) s f ↔ Matches p s f ∨ (s = [] ∧ f = []) := by
  rw [opt, matches_alt, matches_empty]

theorem matches_one_seq :
    Matches (.seq (.one k) q) s f ↔ ∃ c t, k.has c = true ∧ Matches q t f ∧ s = c :: t := by
  rw [matches_seq]
  constructor
  next =>
    rintro ⟨s₁, f₁, s₂, f₂, first, second, rfl, rfl⟩
    obtain ⟨c, inside, rfl, rfl⟩ := matches_one.mp first
    exact ⟨c, s₂, inside, second, rfl⟩
  next =>
    rintro ⟨c, t, inside, second, rfl⟩
    exact ⟨[c], [], t, f, .one inside, second, rfl, rfl⟩

theorem matches_one_seq_nil : ¬Matches (.seq (.one k) q) [] f := by
  intro m
  obtain ⟨c, t, -, -, whole⟩ := matches_one_seq.mp m
  cases whole

theorem matches_one_seq_cons {c : Char} :
    Matches (.seq (.one k) q) (c :: s) f ↔ k.has c = true ∧ Matches q s f := by
  rw [matches_one_seq]
  constructor
  next =>
    rintro ⟨_, _, inside, m, whole⟩
    cases whole
    exact ⟨inside, m⟩
  next =>
    rintro ⟨inside, m⟩
    exact ⟨c, s, inside, m, rfl⟩

theorem matches_atLeastOne :
    Matches (atLeastOne k : Pattern Name) s f ↔ s ≠ [] ∧ (∀ c ∈ s, k.has c = true) ∧ f = [] := by
  rw [atLeastOne]
  cases s with
  | nil => simp [matches_one_seq_nil]
  | cons c s => simp [matches_one_seq_cons, matches_many, and_assoc]

theorem matches_count {low high : Nat} (h : low ≤ high) :
    Matches (count k low high : Pattern Name) s f ↔
      (∀ c ∈ s, k.has c = true) ∧ (low ≤ s.length ∧ s.length ≤ high) ∧ f = [] := by
  induction high generalizing low s with
  | zero =>
    cases Nat.le_zero.mp h
    rw [count, matches_empty]
    constructor
    next =>
      rintro ⟨rfl, rfl⟩
      simp
    next =>
      rintro ⟨-, ⟨-, short⟩, rfl⟩
      exact ⟨List.length_eq_zero_iff.mp (Nat.le_zero.mp short), rfl⟩
  | succ high ih =>
    cases low with
    | zero =>
      rw [count, matches_opt]
      cases s with
      | nil => simp [matches_one_seq_nil]
      | cons c s => simp [matches_one_seq_cons, ih (Nat.zero_le high), and_assoc]
    | succ low =>
      rw [count]
      cases s with
      | nil => simp [matches_one_seq_nil]
      | cons c s => simp [matches_one_seq_cons, ih (Nat.le_of_succ_le_succ h), and_assoc]

theorem has_among {chars : List Char} {c : Char} :
    (Class.among chars).has c = true ↔ fold c ∈ chars :=
  List.contains_iff_mem

theorem has_among_marks {chars : List Char} {c : Char}
    (marks : chars.all (fun d => !isLetter d) = true) :
    (Class.among chars).has c = true ↔ c ∈ chars := by
  have notLetter (d : Char) (member : d ∈ chars) : isLetter d = false := by
    simpa using List.all_eq_true.mp marks d member
  rw [has_among]
  constructor
  next =>
    intro inside
    have notLower : (fold c).isLower = false := by
      cases lower : (fold c).isLower with
      | false => rfl
      | true => exact (isLetter_of_isLower lower).symm.trans (notLetter _ inside)
    rw [← eq_of_fold_eq rfl notLower] at inside
    exact inside
  next =>
    intro inside
    rw [fold_of_not_isLetter (notLetter c inside)]
    exact inside

theorem matches_word {w : List Char} :
    Matches (word w : Pattern Name) s f ↔ s.map fold = w ∧ f = [] := by
  induction w generalizing s with
  | nil => rw [word, matches_empty, List.map_eq_nil_iff]
  | cons c w ih =>
    rw [word]
    cases s with
    | nil => simp [matches_one_seq_nil]
    | cons d s => simp [matches_one_seq_cons, has_among, ih, and_assoc]

theorem matches_oneOf {ps : List (Pattern Name)} :
    Matches (oneOf ps) s f ↔ ∃ p ∈ ps, Matches p s f := by
  induction ps with
  | nil => simp [oneOf, matches_one, has_among]
  | cons p ps ih =>
    cases ps with
    | nil => simp [oneOf]
    | cons q ps =>
      change Matches (.alt p (oneOf (q :: ps))) s f ↔ _
      rw [matches_alt, ih]
      simp

theorem matches_oneOf_words {words : List (List Char)} :
    Matches (oneOf (words.map word) : Pattern Name) s f ↔ s.map fold ∈ words ∧ f = [] := by
  rw [matches_oneOf]
  constructor
  next =>
    rintro ⟨p, member, m⟩
    obtain ⟨w, inWords, rfl⟩ := List.mem_map.mp member
    obtain ⟨rfl, rfl⟩ := matches_word.mp m
    exact ⟨inWords, rfl⟩
  next =>
    rintro ⟨inWords, rfl⟩
    exact ⟨word (s.map fold), List.mem_map_of_mem inWords, matches_word.mpr ⟨rfl, rfl⟩⟩

def classes : Pattern Name → List Class
  | .empty => []
  | .one k => [k]
  | .many k => [k]
  | .seq p q => p.classes ++ q.classes
  | .alt p q => p.classes ++ q.classes
  | .field _ p => p.classes

theorem exists_class (m : Matches p s f) : ∀ c ∈ s, ∃ k ∈ p.classes, k.has c = true := by
  induction m with
  | empty => exact List.forall_mem_nil _
  | one inside => exact List.forall_mem_singleton.mpr ⟨_, List.mem_singleton_self _, inside⟩
  | many all => exact fun c member => ⟨_, List.mem_singleton_self _, all c member⟩
  | seq _ _ first second =>
    intro c member
    rcases List.mem_append.mp member with member | member
    next =>
      obtain ⟨k, ofFirst, inside⟩ := first c member
      exact ⟨k, List.mem_append_left _ ofFirst, inside⟩
    next =>
      obtain ⟨k, ofSecond, inside⟩ := second c member
      exact ⟨k, List.mem_append_right _ ofSecond, inside⟩
  | left _ taken =>
    intro c member
    obtain ⟨k, ofLeft, inside⟩ := taken c member
    exact ⟨k, List.mem_append_left _ ofLeft, inside⟩
  | right _ taken =>
    intro c member
    obtain ⟨k, ofRight, inside⟩ := taken c member
    exact ⟨k, List.mem_append_right _ ofRight, inside⟩
  | field _ _ taken => exact taken

def parts : Pattern Name → List (Name × Pattern Name)
  | .empty => []
  | .one _ => []
  | .many _ => []
  | .seq p q => p.parts ++ q.parts
  | .alt p q => p.parts ++ q.parts
  | .field name p => (name, p) :: p.parts

theorem exists_part (m : Matches p s f) :
    ∀ cut ∈ f, cut.2 <:+: s ∧ ∃ q g, (cut.1, q) ∈ p.parts ∧ Matches q cut.2 g := by
  induction m with
  | empty => exact List.forall_mem_nil _
  | one => exact List.forall_mem_nil _
  | many => exact List.forall_mem_nil _
  | seq _ _ first second =>
    intro cut member
    rcases List.mem_append.mp member with member | member
    next =>
      obtain ⟨piece, q, g, ofFirst, taken⟩ := first cut member
      exact ⟨piece.trans (List.prefix_append _ _).isInfix, q, g,
        List.mem_append_left _ ofFirst, taken⟩
    next =>
      obtain ⟨piece, q, g, ofSecond, taken⟩ := second cut member
      exact ⟨piece.trans (List.suffix_append _ _).isInfix, q, g,
        List.mem_append_right _ ofSecond, taken⟩
  | left _ taken =>
    intro cut member
    obtain ⟨piece, q, g, ofLeft, taken⟩ := taken cut member
    exact ⟨piece, q, g, List.mem_append_left _ ofLeft, taken⟩
  | right _ taken =>
    intro cut member
    obtain ⟨piece, q, g, ofRight, taken⟩ := taken cut member
    exact ⟨piece, q, g, List.mem_append_right _ ofRight, taken⟩
  | field name m taken =>
    intro cut member
    rcases List.mem_cons.mp member with rfl | member
    next => exact ⟨List.infix_rfl, _, _, List.mem_cons_self, m⟩
    next =>
      obtain ⟨piece, q, g, inside, taken⟩ := taken cut member
      exact ⟨piece, q, g, List.mem_cons_of_mem _ inside, taken⟩

def required [BEq Name] : Pattern Name → List Name
  | .empty | .one _ | .many _ => []
  | .seq p q => p.required ++ q.required
  | .alt p q => p.required.filter q.required.contains
  | .field name p => name :: p.required

theorem isSome_lookup [BEq Name] [LawfulBEq Name] (m : Matches p s f) :
    ∀ name ∈ p.required, (f.lookup name).isSome = true := by
  induction m with
  | empty => exact List.forall_mem_nil _
  | one => exact List.forall_mem_nil _
  | many => exact List.forall_mem_nil _
  | seq _ _ first second =>
    intro name member
    rw [List.lookup_append, Option.isSome_or, Bool.or_eq_true]
    exact (List.mem_append.mp member).imp (first name) (second name)
  | left _ taken => exact fun name member => taken name (List.mem_filter.mp member).1
  | right _ taken =>
    intro name member
    exact taken name (List.contains_iff_mem.mp (List.mem_filter.mp member).2)
  | field own _ taken =>
    intro name member
    rw [List.lookup_cons]
    split
    next => rfl
    next other =>
      exact taken name ((List.mem_cons.mp member).resolve_left (beq_eq_false_iff_ne.mp other))

/-- The fields of a text that the pattern takes do not depend on the way it is taken. -/
def Determined (p : Pattern Name) : Prop :=
  ∀ ⦃s f g⦄, Matches p s f → Matches p s g → f = g

/-- What the first of two patterns takes of a text does not depend on the way the text is taken. -/
def Splits (p q : Pattern Name) : Prop :=
  ∀ ⦃s u t f₁ f₂ g₁ g₂⦄, Matches p s f₁ → Matches p (s ++ u) f₂ → Matches q t g₁ →
    Matches q (u ++ t) g₂ → u = []

theorem match?_eq_some_iff (determined : p.Determined) :
    p.match? s = some f ↔ Matches p s f := by
  constructor
  next => exact matches_of_match?
  next =>
    intro m
    obtain ⟨g, found⟩ := Option.isSome_iff_exists.mp (isSome_match?.mpr ⟨f, m⟩)
    rw [found, determined (matches_of_match? found) m]

theorem determined_of_plain (plain : ∀ {s f}, Matches p s f → f = []) : p.Determined :=
  fun _ _ _ first second => (plain first).trans (plain second).symm

theorem determined_field {name : Name} (determined : p.Determined) :
    (field name p).Determined := by
  intro s f g first second
  obtain ⟨f', inside, rfl⟩ := matches_field.mp first
  obtain ⟨g', inside', rfl⟩ := matches_field.mp second
  rw [determined inside inside']

theorem determined_seq (splits : p.Splits q) (hp : p.Determined) (hq : q.Determined) :
    (seq p q).Determined := by
  intro s f g first second
  obtain ⟨s₁, f₁, s₂, f₂, first₁, first₂, rfl, rfl⟩ := matches_seq.mp first
  obtain ⟨t₁, g₁, t₂, g₂, second₁, second₂, same, rfl⟩ := matches_seq.mp second
  -- One of the two first parts is a start of the other, and what it leaves over is empty.
  obtain ⟨u, rfl, rfl⟩ | ⟨u, rfl, rfl⟩ := List.append_eq_append_iff.mp same
  next =>
    cases splits first₁ second₁ second₂ first₂
    rw [List.append_nil] at second₁
    rw [hp first₁ second₁, hq first₂ second₂]
  next =>
    cases splits second₁ first₁ first₂ second₂
    rw [List.append_nil] at first₁
    rw [hp first₁ second₁, hq first₂ second₂]

theorem determined_alt (hp : p.Determined) (hq : q.Determined)
    (apart : ∀ {s f g}, Matches p s f → ¬Matches q s g) : (alt p q).Determined := by
  intro s f g first second
  rcases matches_alt.mp first with first | first
  next =>
    rcases matches_alt.mp second with second | second
    next => exact hp first second
    next => exact absurd second (apart first)
  next =>
    rcases matches_alt.mp second with second | second
    next => exact absurd first (apart second)
    next => exact hq first second

theorem determined_opt (nonempty : ∀ {f}, ¬Matches p [] f) (hp : p.Determined) :
    (opt p).Determined := by
  refine determined_alt hp (determined_of_plain fun m => (matches_empty.mp m).2) ?_
  intro s f g first second
  obtain ⟨rfl, -⟩ := matches_empty.mp second
  exact nonempty first

theorem splits_of_length {n : Nat} (length : ∀ {s f}, Matches p s f → s.length = n) :
    p.Splits q := by
  intro s u t f₁ f₂ g₁ g₂ short long _ _
  have shorter := length short
  have longer := length long
  rw [List.length_append] at longer
  exact List.length_eq_zero_iff.mp (by omega)

theorem splits_of_extension (inside : Char → Prop)
    (extended : ∀ {s u f g}, Matches p s f → Matches p (s ++ u) g → ∀ c ∈ u, inside c)
    (follows : ∀ {c t g}, Matches q (c :: t) g → ¬inside c) : p.Splits q := by
  intro s u t f₁ f₂ g₁ g₂ short long _ rest
  cases u with
  | nil => rfl
  | cons c u => exact absurd (extended short long c List.mem_cons_self) (follows rest)

theorem splits_of_words {words : List (List Char)}
    (apart : ∀ v ∈ words, ∀ w ∈ words, v <+: w → v = w)
    (inWords : ∀ {s f}, Matches p s f → s.map fold ∈ words) : p.Splits q := by
  intro s u t f₁ f₂ g₁ g₂ short long _ _
  have start : s.map fold <+: (s ++ u).map fold := by
    rw [List.map_append]
    exact List.prefix_append _ _
  have same := apart _ (inWords short) _ (inWords long) start
  have lengths := congrArg List.length same
  simp only [List.map_append, List.length_append, List.length_map] at lengths
  exact List.length_eq_zero_iff.mp (by omega)

end Almanac.Text.Pattern
