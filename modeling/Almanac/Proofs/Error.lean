import Almanac.Error

set_option autoImplicit false

/-!
# Kinds of errors

Two errors of one kind break the same rule with other values.
-/

namespace Almanac

namespace Error

inductive Kind
  | unknownChunk | outOfRange | noSuchOccurrence | unrecognizedSpec | undefinedEaster
  | invalidDate | unknownWeekday | unknownEdge
  deriving DecidableEq, Repr

def kind : Error → Kind
  | .unknownChunk _ => .unknownChunk
  | .outOfRange .. => .outOfRange
  | .noSuchOccurrence _ => .noSuchOccurrence
  | .unrecognizedSpec _ => .unrecognizedSpec
  | .undefinedEaster _ => .undefinedEaster
  | .invalidDate _ => .invalidDate
  | .unknownWeekday _ => .unknownWeekday
  | .unknownEdge _ => .unknownEdge

end Error

variable {α β : Type} {x y : Except Error α}

/-- The same result, or errors of one kind. -/
inductive Agrees : Except Error α → Except Error α → Prop
  | ok (a : α) : Agrees (.ok a) (.ok a)
  | error {e e' : Error} (same : e.kind = e'.kind) : Agrees (.error e) (.error e')

theorem Agrees.refl (x : Except Error α) : Agrees x x := by
  cases x with
  | ok a => exact .ok a
  | error e => exact .error rfl

theorem Agrees.eq_ok {a : α} (h : Agrees x (.ok a)) : x = .ok a := by
  cases h
  rfl

theorem Agrees.bind (h : Agrees x y) (f : α → Except Error β) : Agrees (x >>= f) (y >>= f) := by
  cases h with
  | ok a => exact .refl (f a)
  | error same => exact .error same

theorem Agrees.toOption_eq (h : Agrees x y) : x.toOption = y.toOption := by
  cases h with
  | ok a => rfl
  | error same => rfl

theorem toOption_eq_some_iff {a : α} : x.toOption = some a ↔ x = .ok a := by
  cases x <;> simp [Except.toOption]

theorem mapError_bind (g : Error → Error) (x : Except Error α) (f : α → Except Error β) :
    (x >>= f).mapError g = x.mapError g >>= fun a => (f a).mapError g := by
  cases x <;> rfl

/-- Two results, which may differ, or errors of one kind. -/
inductive Alike : Except Error α → Except Error α → Prop
  | ok (a b : α) : Alike (.ok a) (.ok b)
  | error {e e' : Error} (same : e.kind = e'.kind) : Alike (.error e) (.error e')

theorem Alike.map (h : Alike x y) (f : α → β) : Alike (x.map f) (y.map f) := by
  cases h with
  | ok a b => exact .ok (f a) (f b)
  | error same => exact .error same

theorem alike_bind (x : Except Error α) {f g : α → Except Error β}
    (each : ∀ a, x = .ok a → Alike (f a) (g a)) : Alike (x >>= f) (x >>= g) := by
  cases x with
  | ok a => exact each a rfl
  | error e => exact .error rfl

theorem alike_iff : Alike x y ↔ ((∃ a, x = .ok a) ↔ ∃ b, y = .ok b) ∧
    ∀ e e' : Error, x = .error e → y = .error e' → e.kind = e'.kind := by
  constructor
  next =>
    intro h
    cases h with
    | ok a b => simp
    | error same => simp [same]
  next =>
    rintro ⟨together, kinds⟩
    cases x with
    | ok a =>
      obtain ⟨b, rfl⟩ := together.mp ⟨a, rfl⟩
      exact .ok a b
    | error e =>
      cases y with
      | ok b =>
        obtain ⟨a, other⟩ := together.mpr ⟨b, rfl⟩
        cases other
      | error e' => exact .error (kinds e e' rfl rfl)

end Almanac
