import Almanac.Text.Blank
import Almanac.Text.Digit
import Almanac.Text.Letter

set_option autoImplicit false

/-!
# Patterns with named fields

A pattern describes the texts it takes and the fields that it cuts out of them. `Pattern.run` finds
every way to take a start of a text, the preferred one first: the left side of a choice before the
right one and a long run before a short one. `Pattern.match?` is the first way that takes all of it.

Letters are compared without regard to case, by `fold`.
-/

namespace Almanac.Text

inductive Class
  | blank
  | decimal
  | letter
  | among (chars : List Char)
  deriving DecidableEq, Repr

def Class.has : Class → Char → Bool
  | .blank, c => isBlank c
  | .decimal, c => isDecimal c
  | .letter, c => isLetter c
  | .among chars, c => chars.contains (fold c)

inductive Pattern (Name : Type)
  | empty
  | one (k : Class)
  | many (k : Class)
  | seq (p q : Pattern Name)
  | alt (p q : Pattern Name)
  | field (name : Name) (p : Pattern Name)
  deriving DecidableEq, Repr

abbrev Fields (Name : Type) := List (Name × List Char)

/-- One way to take a start of a text: what is taken, its fields, and what is left. -/
structure Taken (Name : Type) where
  taken : List Char
  fields : Fields Name
  rest : List Char

def runs (k : Class) : List Char → List (List Char × List Char)
  | [] => [([], [])]
  | c :: s =>
      if k.has c then (runs k s).map (fun r => (c :: r.1, r.2)) ++ [([], c :: s)]
      else [([], c :: s)]

namespace Pattern

variable {Name : Type}

def run : Pattern Name → List Char → List (Taken Name)
  | .empty, s => [⟨[], [], s⟩]
  | .one _, [] => []
  | .one k, c :: s => if k.has c then [⟨[c], [], s⟩] else []
  | .many k, s => (runs k s).map fun r => ⟨r.1, [], r.2⟩
  | .seq p q, s =>
      (p.run s).flatMap fun a =>
        (q.run a.rest).map fun b => ⟨a.taken ++ b.taken, a.fields ++ b.fields, b.rest⟩
  | .alt p q, s => p.run s ++ q.run s
  | .field name p, s => (p.run s).map fun a => ⟨a.taken, (name, a.taken) :: a.fields, a.rest⟩

def match? (p : Pattern Name) (s : List Char) : Option (Fields Name) :=
  ((p.run s).find? fun a => a.rest.isEmpty).map Taken.fields

def opt (p : Pattern Name) : Pattern Name :=
  .alt p .empty

def word : List Char → Pattern Name
  | [] => .empty
  | c :: s => .seq (.one (.among [c])) (word s)

-- A choice of nothing takes no text at all: no character is among none.
def oneOf : List (Pattern Name) → Pattern Name
  | [] => .one (.among [])
  | [p] => p
  | p :: ps => .alt p (oneOf ps)

def sequence : List (Pattern Name) → Pattern Name
  | [] => .empty
  | [p] => p
  | p :: ps => .seq p (sequence ps)

def count (k : Class) : (low high : Nat) → Pattern Name
  | _, 0 => .empty
  | low + 1, high + 1 => .seq (.one k) (count k low high)
  | 0, high + 1 => opt (.seq (.one k) (count k 0 high))

def atLeastOne (k : Class) : Pattern Name :=
  .seq (.one k) (.many k)

-- The texts that a pattern takes, with their fields.
inductive Matches : Pattern Name → List Char → Fields Name → Prop
  | empty : Matches .empty [] []
  | one {k : Class} {c : Char} (h : k.has c) : Matches (.one k) [c] []
  | many {k : Class} {s : List Char} (h : ∀ c ∈ s, k.has c) : Matches (.many k) s []
  | seq {p q : Pattern Name} {s t : List Char} {f g : Fields Name} (hp : Matches p s f)
      (hq : Matches q t g) : Matches (.seq p q) (s ++ t) (f ++ g)
  | left {p q : Pattern Name} {s : List Char} {f : Fields Name} (h : Matches p s f) :
      Matches (.alt p q) s f
  | right {p q : Pattern Name} {s : List Char} {f : Fields Name} (h : Matches q s f) :
      Matches (.alt p q) s f
  | field {p : Pattern Name} {s : List Char} {f : Fields Name} (name : Name) (h : Matches p s f) :
      Matches (.field name p) s ((name, s) :: f)

end Pattern

theorem mem_runs {k : Class} {s t u : List Char} :
    (t, u) ∈ runs k s ↔ s = t ++ u ∧ ∀ c ∈ t, k.has c := by
  induction s generalizing t with
  | nil =>
    constructor
    next =>
      intro h
      cases List.mem_singleton.1 h
      simp
    next =>
      intro h
      have none := List.append_eq_nil_iff.1 h.1.symm
      simp [runs, none]
  | cons c s ih =>
    constructor
    next =>
      intro h
      unfold runs at h
      split at h
      next inside =>
        rcases List.mem_append.1 h with h | h
        next =>
          rcases List.mem_map.1 h with ⟨r, member, same⟩
          cases same
          have shorter := ih.1 member
          exact ⟨congrArg (c :: ·) shorter.1, by simpa [inside] using shorter.2⟩
        next =>
          cases List.mem_singleton.1 h
          simp
      next outside =>
        cases List.mem_singleton.1 h
        simp
    next =>
      intro h
      rcases h with ⟨whole, all⟩
      unfold runs
      cases t with
      | nil =>
        cases whole
        split <;> simp
      | cons d t =>
        cases whole
        have inside := all c (by simp)
        have shorter : (t, u) ∈ runs k (t ++ u) := ih.2 ⟨rfl, fun x hx => all x (by simp [hx])⟩
        rw [if_pos inside]
        exact List.mem_append_left _ (List.mem_map.2 ⟨(t, u), shorter, rfl⟩)

namespace Pattern

variable {Name : Type}

theorem matches_of_mem_run {p : Pattern Name} {s : List Char} {a : Taken Name} (h : a ∈ p.run s) :
    s = a.taken ++ a.rest ∧ Matches p a.taken a.fields := by
  induction p generalizing s a with
  | empty =>
    cases List.mem_singleton.1 h
    exact ⟨rfl, .empty⟩
  | one k =>
    cases s with
    | nil => cases h
    | cons c s =>
      unfold run at h
      split at h
      next inside =>
        cases List.mem_singleton.1 h
        exact ⟨rfl, .one inside⟩
      next => cases h
  | many k =>
    obtain ⟨⟨t, u⟩, member, rfl⟩ := List.mem_map.1 h
    have whole := mem_runs.1 member
    exact ⟨whole.1, .many whole.2⟩
  | seq p q ihp ihq =>
    simp only [run, List.mem_flatMap, List.mem_map] at h
    obtain ⟨b, hb, c, hc, rfl⟩ := h
    obtain ⟨split, first⟩ := ihp hb
    obtain ⟨splitRest, second⟩ := ihq hc
    exact ⟨by rw [split, splitRest, List.append_assoc], .seq first second⟩
  | alt p q ihp ihq =>
    rcases List.mem_append.1 h with h | h
    next => exact ⟨(ihp h).1, .left (ihp h).2⟩
    next => exact ⟨(ihq h).1, .right (ihq h).2⟩
  | field name p ih =>
    obtain ⟨b, hb, rfl⟩ := List.mem_map.1 h
    obtain ⟨split, m⟩ := ih hb
    exact ⟨split, .field name m⟩

theorem mem_run_of_matches {p : Pattern Name} {s : List Char} {f : Fields Name}
    (m : Matches p s f) (rest : List Char) : ⟨s, f, rest⟩ ∈ p.run (s ++ rest) := by
  induction m generalizing rest with
  | empty => exact List.mem_singleton.2 rfl
  | one inside => simp [run, inside]
  | @many k s all => exact List.mem_map.2 ⟨(s, rest), mem_runs.2 ⟨rfl, all⟩, rfl⟩
  | @seq p q s t f g first second ihp ihq =>
    simp only [run, List.mem_flatMap, List.mem_map]
    refine ⟨⟨s, f, t ++ rest⟩, ?_, ⟨t, g, rest⟩, ihq rest, rfl⟩
    rw [List.append_assoc]
    exact ihp (t ++ rest)
  | left m ih => exact List.mem_append_left _ (ih rest)
  | right m ih => exact List.mem_append_right _ (ih rest)
  | @field p s f name m ih => exact List.mem_map.2 ⟨⟨s, f, rest⟩, ih rest, rfl⟩

theorem mem_run {p : Pattern Name} {s : List Char} {a : Taken Name} :
    a ∈ p.run s ↔ s = a.taken ++ a.rest ∧ Matches p a.taken a.fields := by
  constructor
  next => exact matches_of_mem_run
  next =>
    rintro ⟨rfl, m⟩
    exact mem_run_of_matches m a.rest

theorem matches_of_match? {p : Pattern Name} {s : List Char} {f : Fields Name}
    (h : p.match? s = some f) : Matches p s f := by
  rcases Option.map_eq_some_iff.1 h with ⟨a, found, rfl⟩
  have done := List.find?_some found
  rcases mem_run.1 (List.mem_of_find?_eq_some found) with ⟨split, m⟩
  rw [split, List.isEmpty_iff.1 done, List.append_nil]
  exact m

theorem isSome_match? {p : Pattern Name} {s : List Char} :
    (p.match? s).isSome ↔ ∃ f, Matches p s f := by
  constructor
  next =>
    intro h
    rcases Option.isSome_iff_exists.1 h with ⟨f, hf⟩
    exact ⟨f, matches_of_match? hf⟩
  next =>
    intro h
    rcases h with ⟨f, m⟩
    have member : (⟨s, f, []⟩ : Taken Name) ∈ p.run s := mem_run.2 ⟨by simp, m⟩
    simp only [match?, Option.isSome_map, List.find?_isSome]
    exact ⟨_, member, rfl⟩

end Pattern

end Almanac.Text
