import Mathlib.Data.List.TakeWhile
import Almanac.Proofs.Text.Blank

set_option autoImplicit false

/-!
# Tidying a text in parts

Blanks at the end of a text are lost when it is tidied, and what follows them is kept apart by
blanks at most.
-/

namespace Almanac.Text

variable {c : Char} {s t gap : List Char} {owed : Bool}

theorem trimEnd_append_blanks (blanks : ∀ c ∈ gap, isBlank c = true) (s : List Char) :
    trimEnd (s ++ gap) = trimEnd s := by
  have reversed : ∀ c ∈ gap.reverse, isBlank c = true :=
    fun c member => blanks c (List.mem_reverse.mp member)
  rw [trimEnd, List.reverse_append, List.dropWhile_append_of_pos reversed, trimEnd]

theorem trim_surrounded {before after : List Char} (left : Blanks before) (right : Blanks after)
    (s : List Char) :
    trim (before ++ (s ++ after)) = trim s := by
  rw [trim, trimStart, List.dropWhile_append_of_pos left, List.dropWhile_append, trim, trimStart]
  split
  next nothing =>
    have all : after.dropWhile isBlank = [] := List.dropWhile_eq_nil_iff.mpr right
    rw [all, List.isEmpty_iff.mp nothing]
  next => exact trimEnd_append_blanks right _

theorem isPrefix_trimEnd (s : List Char) : trimEnd s <+: s := by
  have shorter := List.reverse_prefix.mpr (List.dropWhile_suffix (l := s.reverse) isBlank)
  rwa [List.reverse_reverse] at shorter

theorem trimEnd_eq_self_of_last (last : ∀ c ∈ s.getLast?, isBlank c = false) : trimEnd s = s := by
  rw [← List.head?_reverse] at last
  have reversed : s.reverse.dropWhile isBlank = s.reverse := by
    cases h : s.reverse with
    | nil => rfl
    | cons c u =>
      rw [h] at last
      exact List.dropWhile_cons_of_neg (Bool.eq_false_iff.mp (last c rfl))
  rw [trimEnd, reversed, List.reverse_reverse]

theorem mem_spaced (member : c ∈ spaced owed s) : c ∈ s ∨ c = ' ' := by
  induction s generalizing owed with
  | nil => cases owed <;> cases member
  | cons d s ih =>
    have later (within : c ∈ spaced false s) : c ∈ d :: s ∨ c = ' ' :=
      (ih within).imp_left (List.mem_cons_of_mem d)
    unfold spaced at member
    split at member
    next => exact (ih member).imp_left (List.mem_cons_of_mem d)
    next =>
      split at member
      next =>
        rcases List.mem_cons.mp member with rfl | member
        next => exact .inr rfl
        next =>
          rcases List.mem_cons.mp member with rfl | within
          next => exact .inl List.mem_cons_self
          next => exact later within
      next =>
        rcases List.mem_cons.mp member with rfl | within
        next => exact .inl List.mem_cons_self
        next => exact later within

theorem mem_squeeze (member : c ∈ squeeze s) : c ∈ s ∨ c = ' ' :=
  (mem_spaced member).imp_left fun within => (List.dropWhile_suffix isBlank).mem within

theorem disguised_of_squeeze (h : Disguised (squeeze s)) : Disguised s := by
  have space : ' ' ≠ longS ∧ ' ' ≠ kelvin := by decide
  refine h.imp (fun long => ?_) fun sign => ?_
  next => exact (mem_squeeze long).resolve_right space.1.symm
  next => exact (mem_squeeze sign).resolve_right space.2.symm

theorem spaced_last (last : c ∈ (spaced owed s).getLast?) : isBlank c = false := by
  induction s generalizing owed with
  | nil => cases owed <;> cases last
  | cons d s ih =>
    have later (within : c ∈ (d :: spaced false s).getLast?) (inside : ¬isBlank d = true) :
        isBlank c = false := by
      cases rest : spaced false s with
      | nil =>
        rw [rest] at within
        cases within
        exact Bool.eq_false_iff.mpr inside
      | cons e u =>
        rw [rest, List.getLast?_cons_cons, ← rest] at within
        exact ih within
    unfold spaced at last
    split at last
    next => exact ih last
    next inside =>
      split at last
      next =>
        rw [List.getLast?_cons_cons] at last
        exact later last inside
      next => exact later last inside

theorem trimEnd_squeeze (s : List Char) : trimEnd (squeeze s) = squeeze s :=
  trimEnd_eq_self_of_last fun _ last => spaced_last last

theorem spaced_blanks (blanks : ∀ c ∈ gap, isBlank c = true) : spaced owed gap = [] := by
  induction gap generalizing owed with
  | nil => exact spaced_nil owed
  | cons c gap ih =>
    rw [spaced, if_pos (blanks c List.mem_cons_self)]
    exact ih fun d member => blanks d (List.mem_cons_of_mem c member)

theorem spaced_append_blanks (blanks : ∀ c ∈ gap, isBlank c = true) :
    spaced owed (s ++ gap) = spaced owed s := by
  induction s generalizing owed with
  | nil => rw [List.nil_append, spaced_blanks blanks, spaced_nil]
  | cons c s ih => simp only [List.cons_append, spaced, ih]

theorem spaced_append (nonempty : t ≠ []) (bare : ∀ c ∈ t, isBlank c = false) :
    ∃ gap, (∀ c ∈ gap, isBlank c = true) ∧ spaced owed (s ++ t) = spaced owed s ++ (gap ++ t) := by
  induction s generalizing owed with
  | nil =>
    obtain ⟨c, t, rfl⟩ := List.exists_cons_of_ne_nil nonempty
    have first := bare c List.mem_cons_self
    have others : spaced false t = t :=
      spaced_eq_self fun d member => bare d (List.mem_cons_of_mem c member)
    cases owed with
    | false =>
      refine ⟨[], List.forall_mem_nil _, ?_⟩
      simp only [List.nil_append, spaced, first, others, Bool.false_eq_true, if_false]
    | true =>
      refine ⟨[' '], List.forall_mem_singleton.mpr isBlank_space, ?_⟩
      simp only [List.nil_append, List.singleton_append, spaced, first, others,
        Bool.false_eq_true, if_false, if_true]
  | cons d s ih =>
    cases blank : isBlank d with
    | true =>
      obtain ⟨gap, blanks, whole⟩ := @ih true
      refine ⟨gap, blanks, ?_⟩
      simp only [List.cons_append, spaced, blank, if_true, whole]
    | false =>
      obtain ⟨gap, blanks, whole⟩ := @ih false
      refine ⟨gap, blanks, ?_⟩
      cases owed with
      | false => simp only [List.cons_append, spaced, blank, Bool.false_eq_true, if_false, whole]
      | true =>
        simp only [List.cons_append, spaced, blank, Bool.false_eq_true, if_false, if_true, whole]

theorem squeeze_append_blanks (blanks : ∀ c ∈ gap, isBlank c = true) (s : List Char) :
    squeeze (s ++ gap) = squeeze s := by
  rw [squeeze, squeeze, trimStart, trimStart, List.dropWhile_append]
  split
  next nothing =>
    have all : gap.dropWhile isBlank = [] := List.dropWhile_eq_nil_iff.mpr blanks
    rw [all, List.isEmpty_iff.mp nothing]
  next => exact spaced_append_blanks blanks

theorem squeeze_append (nonempty : t ≠ []) (bare : ∀ c ∈ t, isBlank c = false) (s : List Char) :
    ∃ gap, (∀ c ∈ gap, isBlank c = true) ∧ squeeze (s ++ t) = squeeze s ++ (gap ++ t) := by
  rw [squeeze, squeeze, trimStart, trimStart, List.dropWhile_append]
  split
  next nothing =>
    refine ⟨[], List.forall_mem_nil _, ?_⟩
    rw [List.isEmpty_iff.mp nothing]
    exact squeeze_eq_self bare
  next => exact spaced_append nonempty bare

theorem spaced_owed (s : List Char) : spaced true s = [] ∨ ∃ t, spaced true s = ' ' :: t := by
  induction s with
  | nil => exact .inl rfl
  | cons c s ih =>
    unfold spaced
    split
    next => exact ih
    next => exact .inr ⟨_, if_pos rfl⟩

theorem prefix_of_spaced (bare : ∀ c ∈ t, isBlank c = false) (h : t <+: spaced false s) :
    t <+: s := by
  induction s generalizing t with
  | nil => exact h
  | cons c s ih =>
    cases t with
    | nil => exact List.nil_prefix
    | cons d t =>
      have others := fun e member => bare e (List.mem_cons_of_mem d member)
      unfold spaced at h
      split at h
      next =>
        rcases spaced_owed s with none | ⟨u, space⟩
        next =>
          rw [none] at h
          cases List.prefix_nil.mp h
        next =>
          rw [space, List.cons_prefix_cons] at h
          cases h.1
          cases bare ' ' List.mem_cons_self
      next =>
        rw [if_neg Bool.false_ne_true, List.cons_prefix_cons] at h
        exact List.cons_prefix_cons.mpr ⟨h.1, ih others h.2⟩

theorem infix_of_squeeze (bare : ∀ c ∈ t, isBlank c = false) (h : t <+: squeeze s) : t <:+: s :=
  (prefix_of_spaced bare h).isInfix.trans (List.dropWhile_suffix isBlank).isInfix

end Almanac.Text
