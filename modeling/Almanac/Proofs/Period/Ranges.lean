import Almanac.Proofs.Period.Build
import Almanac.Proofs.Period.Fields

set_option autoImplicit false

/-!
# Numbers out of range

Each form has ranges in which the numbers of its fields have to lie. When they do, the form is built
of its fields, but for a name that is not known; otherwise the error names a number that does not.
-/

namespace Almanac

open Text (Fields lower)
open Text.Pattern (Matches isSome_lookup)

structure Range where
  field : Field
  quantity : Quantity
  low : Int
  high : Int

namespace Range

-- Ordinals are counted from either end of a month.
def size (r : Range) (n : Int) : Int :=
  if r.quantity = .ordinalDay then n.natAbs else n

def Holds (r : Range) (n : Int) : Prop :=
  r.low ≤ r.size n ∧ r.size n ≤ r.high

def Within (r : Range) (fields : Fields Field) : Prop :=
  ∀ n ∈ Form.value fields r.field, r.Holds n

def error (r : Range) (n : Int) : Error :=
  .outOfRange r.quantity n r.low r.high

end Range

def Form.ranges : Form → List Range
  | .dayOfYear => [⟨.day, .dayOfYear, 1, 366⟩]
  | .month => [⟨.month, .monthNumber, 1, 12⟩]
  | .isoWeek => [⟨.number, .weekNumber, 1, 53⟩, ⟨.day, .isoDay, 1, 7⟩]
  | .quarter => [⟨.number, .quarterNumber, 1, 4⟩]
  | .half => [⟨.number, .halfNumber, 1, 2⟩]
  | .halfMonth | .weekOfMonth => [⟨.month, .monthNumber, 1, 12⟩]
  | .nthWeekday => [⟨.month, .monthNumber, 1, 12⟩, ⟨.nth, .ordinalDay, 1, 5⟩]
  | .easter => [⟨.offset, .easterOffset, -2147483648, 2147483647⟩]
  | .year | .relative | .forever | .never => []

/-- A result that is a value when all numbers lie in their ranges, and the error of one that does
not otherwise. -/
inductive Checked {α : Type} (ranges : List Range) (fields : Fields Field) :
    Except Error α → Prop
  | ok (a : α) (within : ∀ r ∈ ranges, r.Within fields) : Checked ranges fields (.ok a)
  | error {r : Range} {n : Int} (member : r ∈ ranges) (given : Form.value fields r.field = some n)
      (outside : ¬r.Holds n) : Checked ranges fields (.error (r.error n))

section

variable {α β : Type} {ranges others : List Range} {r : Range} {n : Int} {fields : Fields Field}
  {x : Except Error α} {rest : α → Except Error β}

theorem checked_ok (a : α) : Checked [] fields (.ok a) :=
  .ok a (List.forall_mem_nil _)

theorem Checked.bind (first : Checked ranges fields x)
    (second : ∀ a, Checked others fields (rest a)) :
    Checked (ranges ++ others) fields (x >>= rest) := by
  cases first with
  | ok a within =>
    have second := second a
    change Checked _ _ (rest a)
    generalize rest a = y at second
    cases second with
    | ok b later => exact .ok b (List.forall_mem_append.mpr ⟨within, later⟩)
    | error member given outside => exact .error (List.mem_append_right _ member) given outside
  | error member given outside => exact .error (List.mem_append_left _ member) given outside

theorem Checked.exists_ok (h : Checked ranges fields x) (within : ∀ r ∈ ranges, r.Within fields) :
    ∃ a, x = .ok a := by
  cases h with
  | ok a _ => exact ⟨a, rfl⟩
  | error member given outside => exact absurd (within _ member _ given) outside

theorem checked_checkRange (given : Form.value fields r.field = some n) (plain : r.size n = n) :
    Checked [r] fields (checkRange r.quantity n r.low r.high) := by
  unfold checkRange
  split
  next inside =>
    refine .ok () (List.forall_mem_singleton.mpr fun i member => ?_)
    obtain rfl : n = i := Option.some.inj (given.symm.trans member)
    rw [Range.Holds, plain]
    exact inside
  next outside =>
    refine .error List.mem_cons_self given ?_
    rw [Range.Holds, plain]
    exact outside

end

namespace Form

variable {fields : Fields Field} {form : Form} {field : Field} {s : List Char}

theorem value_of_isSome (given : (fields.lookup field).isSome = true) :
    value fields field = some (number fields field) := by
  obtain ⟨s, found⟩ := Option.isSome_iff_exists.mp given
  rw [value, number, found]
  rfl

theorem checked_number {r : Range} (given : (fields.lookup r.field).isSome = true)
    (plain : r.quantity ≠ .ordinalDay) :
    Checked [r] fields (checkRange r.quantity (number fields r.field) r.low r.high) :=
  checked_checkRange (value_of_isSome given) (if_neg plain)

theorem checked_partOf {r : Range} (plain : r.quantity ≠ .ordinalDay) :
    Checked [r] fields (partOf r.quantity r.low r.high r.field fields) := by
  unfold partOf
  split
  next s found =>
    have given : value fields r.field = some (Text.saturated s) := by
      rw [value, found, Option.map_some]
    exact (checked_checkRange given (if_neg plain)).bind fun _ => checked_ok _
  next absent =>
    refine .ok none (List.forall_mem_singleton.mpr fun n member => ?_)
    rw [value, absent] at member
    cases member

theorem checked_monthOf : Checked [⟨.month, .monthNumber, 1, 12⟩] fields (monthOf fields) :=
  @checked_partOf _ ⟨.month, .monthNumber, 1, 12⟩ (by decide)

theorem checked_isoDayOf : Checked [⟨.day, .isoDay, 1, 7⟩] fields (isoDayOf fields) :=
  @checked_partOf _ ⟨.day, .isoDay, 1, 7⟩ (by decide)

theorem checked_nthOf (given : (fields.lookup .nth).isSome = true) :
    Checked [⟨.nth, .ordinalDay, 1, 5⟩] fields (nthOf fields) := by
  have known := value_of_isSome given
  have size (n : Int) : Range.Holds ⟨.nth, .ordinalDay, 1, 5⟩ n ↔ 1 ≤ n.natAbs ∧ n.natAbs ≤ 5 := by
    unfold Range.Holds Range.size
    simp only [if_true]
    omega
  unfold nthOf
  dsimp only
  split
  next inside =>
    refine .ok _ (List.forall_mem_singleton.mpr fun n member => ?_)
    obtain rfl : number fields .nth = n := Option.some.inj (known.symm.trans member)
    exact (size _).mpr inside
  next outside => exact .error List.mem_cons_self known (outside ∘ (size _).mp)

theorem checked_offset : Checked [⟨.offset, .easterOffset, -2147483648, 2147483647⟩] fields
    (checkRange .easterOffset (number fields .offset) (-2147483648) 2147483647) := by
  cases found : fields.lookup .offset with
  | none =>
    have zero : number fields .offset = 0 := by rw [number, found]; rfl
    rw [zero]
    refine .ok () (List.forall_mem_singleton.mpr fun n member => ?_)
    rw [value, found] at member
    cases member
  | some s =>
    exact @checked_number _ ⟨.offset, .easterOffset, -2147483648, 2147483647⟩
      (by rw [found]; rfl) (by decide)

theorem checked_build (m : Matches form.pattern s fields)
    (nameless : form ≠ .nthWeekday ∧ form ≠ .relative) :
    Checked form.ranges fields (form.build fields) := by
  have checked (r : Range) (always : r.field ∈ form.pattern.required)
      (plain : r.quantity ≠ .ordinalDay) :
      Checked [r] fields (checkRange r.quantity (number fields r.field) r.low r.high) :=
    checked_number (isSome_lookup m _ always) plain
  cases form with
  | dayOfYear =>
    have day := checked ⟨.day, .dayOfYear, 1, 366⟩ (by decide) (by decide)
    exact day.bind fun _ => checked_ok _
  | month =>
    have month := checked ⟨.month, .monthNumber, 1, 12⟩ (by decide) (by decide)
    exact month.bind fun _ => checked_ok _
  | isoWeek =>
    have week := checked ⟨.number, .weekNumber, 1, 53⟩ (by decide) (by decide)
    exact week.bind fun _ => checked_isoDayOf.bind fun _ => checked_ok _
  | quarter =>
    have quarter := checked ⟨.number, .quarterNumber, 1, 4⟩ (by decide) (by decide)
    exact quarter.bind fun _ => checked_ok _
  | half =>
    have half := checked ⟨.number, .halfNumber, 1, 2⟩ (by decide) (by decide)
    exact half.bind fun _ => checked_ok _
  | halfMonth => exact checked_monthOf.bind fun _ => checked_ok _
  | weekOfMonth => exact checked_monthOf.bind fun _ => checked_ok _
  | easter => exact checked_offset.bind fun _ => checked_ok _
  | year | forever | never => exact checked_ok _
  | nthWeekday => exact absurd rfl nameless.1
  | relative => exact absurd rfl nameless.2

end Form

end Almanac
