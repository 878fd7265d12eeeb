import Almanac.Period.Reader
import Almanac.Proofs.Text.Outline

set_option autoImplicit false

/-!
# One form for a text

No text has two forms: the outlines of the thirteen forms differ. The order in which the forms are
tried therefore decides nothing.
-/

namespace Almanac

open Text (Fields)
open Text.Pattern (Matches)

namespace Form

variable {a b form : Form} {s : List Char} {f g : Fields Field}

theorem mem_all (form : Form) : form ∈ all := by
  cases form <;> decide

theorem ctorIdx_injective (h : a.ctorIdx = b.ctorIdx) : a = b := by
  revert h
  cases a <;> cases b <;> decide

-- Each pair of forms is looked at once.
theorem outlines_apart :
    ∀ a ∈ all, ∀ b ∈ all, a.ctorIdx < b.ctorIdx → a.pattern.apart b.pattern = true := by
  decide +kernel

theorem eq_of_matches (ma : Matches a.pattern s f) (mb : Matches b.pattern s g) : a = b := by
  rcases Nat.lt_trichotomy a.ctorIdx b.ctorIdx with before | same | after
  next =>
    have apart := outlines_apart a (mem_all a) b (mem_all b) before
    exact absurd mb (Text.Pattern.not_matches_of_apart apart ma)
  next => exact ctorIdx_injective same
  next =>
    have apart := outlines_apart b (mem_all b) a (mem_all a) after
    exact absurd ma (Text.Pattern.not_matches_of_apart apart mb)

theorem read?_eq_of_match? {forms : List Form} (member : form ∈ forms)
    (h : form.pattern.match? s = some f) : Period.read? forms s = some (form.build f) := by
  have taken : (form.pattern.match? s).map form.build = some (form.build f) := by rw [h]; rfl
  have found : (Period.read? forms s).isSome = true :=
    List.findSome?_isSome_iff.mpr ⟨form, member, by rw [taken]; rfl⟩
  obtain ⟨built, read⟩ := Option.isSome_iff_exists.mp found
  obtain ⟨other, -, result⟩ := List.exists_of_findSome?_eq_some read
  obtain ⟨g, matched, -⟩ := Option.map_eq_some_iff.mp result
  obtain rfl := eq_of_matches (Text.Pattern.matches_of_match? matched)
    (Text.Pattern.matches_of_match? h)
  rw [read, ← result, taken]

theorem read?_eq_none {forms : List Form} (h : ∀ form : Form, form.pattern.match? s = none) :
    Period.read? forms s = none := by
  rw [Period.read?, List.findSome?_eq_none_iff]
  intro form _
  rw [h form]
  rfl

theorem read?_eq_of_all {forms : List Form} (every : ∀ form : Form, form ∈ forms) :
    Period.read? forms s = Period.read? all s := by
  by_cases h : ∃ form : Form, (form.pattern.match? s).isSome = true
  next =>
    obtain ⟨form, taken⟩ := h
    obtain ⟨f, matched⟩ := Option.isSome_iff_exists.mp taken
    rw [read?_eq_of_match? (every form) matched, read?_eq_of_match? (mem_all form) matched]
  next =>
    have none (form : Form) : form.pattern.match? s = .none :=
      Option.not_isSome_iff_eq_none.mp fun taken => h ⟨form, taken⟩
    rw [read?_eq_none none, read?_eq_none none]

/-- At most one form takes a text, so that a spec is read in the same way in every order of the
forms. -/
theorem form_unique_and_order_free :
    (∀ (base : List Char) (a b : Form), (a.pattern.match? base).isSome = true →
      (b.pattern.match? base).isSome = true → a = b) ∧
    ∀ forms : List Form, forms.Perm all → ∀ text : List Char,
      Spec.readWith forms text = Spec.read text := by
  constructor
  next =>
    intro base a b ha hb
    obtain ⟨f, ma⟩ := Text.Pattern.isSome_match?.mp ha
    obtain ⟨g, mb⟩ := Text.Pattern.isSome_match?.mp hb
    exact eq_of_matches ma mb
  next =>
    intro forms perm text
    have every (form : Form) : form ∈ forms := perm.mem_iff.mpr (mem_all form)
    simp only [Spec.read, Spec.readWith, read?_eq_of_all every]

theorem form_unique_and_order_free_nth_weekday :
    (∀ form : Form, (form.pattern.match? "2024-11-4Th".toList).isSome = true → form = .nthWeekday) ∧
    all.reverse.Perm all ∧
    Spec.readWith all.reverse "2024-11-4Th <=Mo".toList =
      .ok ⟨.nthWeekday (some 2024) (some 11) 4 .thursday, some ⟨.before, true, .monday⟩⟩ := by
  have matched : (nthWeekday.pattern.match? "2024-11-4Th".toList).isSome = true := by
    decide +kernel
  have read : Spec.read "2024-11-4Th <=Mo".toList =
      .ok ⟨.nthWeekday (some 2024) (some 11) 4 .thursday, some ⟨.before, true, .monday⟩⟩ :=
    rfl
  refine ⟨fun form taken => ?_, List.reverse_perm all, ?_⟩
  next => exact form_unique_and_order_free.1 _ form .nthWeekday taken matched
  next => exact (form_unique_and_order_free.2 _ (List.reverse_perm all) _).trans read

end Form

end Almanac
