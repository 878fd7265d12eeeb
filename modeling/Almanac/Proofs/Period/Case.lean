import Almanac.Proofs.Period.Skip
import Almanac.Proofs.Text.Case

set_option autoImplicit false

/-!
# Specs in either case

The reader folds the case of letters in many places: in the patterns, in the names of weekdays and
chunks, in the roman numerals, the halves of a month and the relations. Each of them gives the same
for a text in lower case, so that a spec is read in the same way in every case. Only the text that
an error quotes keeps the case in which it was written.
-/

namespace Almanac

open Text (Fields lower)
open Text.Pattern (lowered lookup_lowered)

namespace Error

def lowered : Error → Error
  | .unknownChunk name => .unknownChunk (lower name)
  | .unrecognizedSpec text => .unrecognizedSpec (lower text)
  | .unknownWeekday name => .unknownWeekday (lower name)
  | .unknownEdge name => .unknownEdge (lower name)
  | .outOfRange quantity value low high => .outOfRange quantity value low high
  | .noSuchOccurrence absence => .noSuchOccurrence absence
  | .undefinedEaster year => .undefinedEaster year
  | .invalidDate fault => .invalidDate fault

theorem kind_lowered (e : Error) : e.lowered.kind = e.kind := by
  cases e <;> rfl

theorem eq_unrecognizedSpec_iff {e : Error} :
    (∃ text, e = .unrecognizedSpec text) ↔ e.kind = .unrecognizedSpec := by
  cases e <;> simp [kind]

theorem lowered_eq_outOfRange_iff {e : Error} {quantity : Quantity} {value low high : Int} :
    e.lowered = .outOfRange quantity value low high ↔ e = .outOfRange quantity value low high := by
  cases e <;> simp [lowered]

end Error

theorem mapError_checkRange (quantity : Quantity) (value low high : Int) :
    (checkRange quantity value low high).mapError Error.lowered =
      checkRange quantity value low high := by
  unfold checkRange
  split <;> rfl

theorem Weekday.read_lower (s : List Char) :
    Weekday.read (lower s) = (Weekday.read s).mapError Error.lowered := by
  have named : ofName? (lower s) = ofName? s := by
    have initials : lower ((Text.trim (lower s)).take 2) = lower ((Text.trim s).take 2) := by
      rw [Text.trim_lower, Text.take_lower, Text.lower_lower]
    rw [ofName?, initials, ofName?]
  rw [read, named, Text.trim_lower, read]
  cases ofName? s <;> rfl

theorem Chunk.mapError_read (s : List Char) :
    (Chunk.read (lower s)).mapError Error.lowered = Chunk.read (lower s) := by
  rw [read]
  split
  next => rfl
  next =>
    split
    next => rfl
    next => exact congrArg (Except.error ∘ Error.unknownChunk) (Text.lower_lower s)

namespace Form

variable (f : Fields Field) (field : Field)

theorem letters_lowered : letters (lowered f) field = lower (letters f field) := by
  rw [letters, lookup_lowered, letters]
  cases f.lookup field <;> rfl

theorem lower_letters_lowered : lower (letters (lowered f) field) = lower (letters f field) := by
  rw [letters_lowered, Text.lower_lower]

theorem number_lowered : number (lowered f) field = number f field := by
  rw [number, lookup_lowered, number]
  cases f.lookup field with
  | none => rfl
  | some s => exact Text.saturated_lower s

theorem yearOf_lowered : yearOf (lowered f) = yearOf f := by
  simp only [yearOf, lookup_lowered, Option.map_map, Function.comp_def, Text.saturated_lower]

theorem dayOf_lowered : dayOf (lowered f) = dayOf f := by
  simp only [dayOf, lookup_lowered, Option.map_map, Function.comp_def, Text.saturated_lower]

theorem halfOf_lowered : halfOf (lowered f) = halfOf f := by
  rw [halfOf, lower_letters_lowered, halfOf]

theorem romanOf_lowered : romanOf (lowered f) = romanOf f := by
  rw [romanOf, lower_letters_lowered, romanOf]

theorem offsetOf_lowered : offsetOf (lowered f) = offsetOf f := by
  rw [offsetOf, lower_letters_lowered, offsetOf]

theorem partOf_lowered (quantity : Quantity) (low high : Int) :
    partOf quantity low high field (lowered f) =
      (partOf quantity low high field f).mapError Error.lowered := by
  rw [partOf, lookup_lowered, partOf]
  cases f.lookup field with
  | none => rfl
  | some s =>
    simp only [Option.map_some, Text.saturated_lower, mapError_bind, mapError_checkRange]
    rfl

theorem monthOf_lowered : monthOf (lowered f) = (monthOf f).mapError Error.lowered :=
  partOf_lowered f .month .monthNumber 1 12

theorem isoDayOf_lowered : isoDayOf (lowered f) = (isoDayOf f).mapError Error.lowered :=
  partOf_lowered f .day .isoDay 1 7

theorem nthOf_lowered : nthOf (lowered f) = (nthOf f).mapError Error.lowered := by
  rw [nthOf, number_lowered, nthOf]
  split <;> rfl

theorem build_lowered (form : Form) :
    form.build (lowered f) = (form.build f).mapError Error.lowered := by
  cases form with
  | dayOfYear | month | isoWeek | quarter | half | year | halfMonth | weekOfMonth | easter =>
    simp only [build, number_lowered, yearOf_lowered, monthOf_lowered, dayOf_lowered,
      isoDayOf_lowered, halfOf_lowered, romanOf_lowered, mapError_bind, mapError_checkRange]
    rfl
  | nthWeekday =>
    simp only [build, yearOf_lowered, monthOf_lowered, nthOf_lowered, letters_lowered,
      Weekday.read_lower, mapError_bind]
    rfl
  | relative =>
    simp only [build, lower_letters_lowered, offsetOf_lowered]
    split
    next => rfl
    next =>
      rw [mapError_bind, Chunk.mapError_read]
      rfl
  | forever => rfl
  | never => rfl

end Form

namespace Skip

theorem build_lowered (f : Fields Field) :
    build (lowered f) = (build f).mapError Error.lowered := by
  have angle : Text.isLetter '<' = false := by decide
  have equals : Text.isLetter '=' = false := by decide
  simp only [build, Form.letters_lowered, Weekday.read_lower, mapError_bind,
    Text.head?_lower angle, Text.getLast?_lower equals]
  rfl

theorem cut?_lower (s : List Char) :
    cut? (lower s) = (cut? s).map fun found => (lower found.1, lowered found.2) := by
  induction s with
  | nil => rfl
  | cons c s ih =>
    have head := Text.Pattern.match?_lower pattern (c :: s)
    rw [Text.lower_cons] at head
    rw [Text.lower_cons, cut?, head, ih, cut?]
    cases pattern.match? (c :: s) with
    | some f => rfl
    | none => simp only [Option.map_none, Option.map_map, Function.comp_def, Text.lower_cons]

theorem split_lower (s : List Char) :
    split (lower s) =
      ((split s).map fun cut => (lower cut.1, cut.2)).mapError Error.lowered := by
  rw [split, cut?_lower, split]
  cases cut? s with
  | none => rfl
  | some found =>
    simp only [Option.map_some, build_lowered, Text.trimEnd_lower]
    cases build found.2 <;> rfl

end Skip

theorem Period.read?_lower (forms : List Form) (s : List Char) :
    Period.read? forms (lower s) =
      (Period.read? forms s).map fun period => period.mapError Error.lowered := by
  induction forms with
  | nil => rfl
  | cons form forms ih =>
    rw [read?, read?, List.findSome?_cons, List.findSome?_cons, ← read?, ← read?, ih,
      Text.Pattern.match?_lower]
    cases form.pattern.match? s with
    | none => rfl
    | some f => exact congrArg some (Form.build_lowered f form)

namespace Spec

theorem readCut_lower (tidy base : List Char) (skip : Option Skip) :
    readCut (lower tidy) (lower base) skip =
      (readCut tidy base skip).mapError Error.lowered := by
  rw [readCut, Period.read?_lower, readCut]
  cases Period.read? Form.all base with
  | none => rfl
  | some period => cases period <;> rfl

theorem read_lower (text : List Char) :
    Spec.read (lower text) = (Spec.read text).mapError Error.lowered := by
  have lowered := Skip.split_lower (Text.squeeze text)
  rw [← Text.squeeze_lower] at lowered
  cases cut : Skip.split (Text.squeeze text) with
  | error e =>
    rw [cut] at lowered
    rw [Spec.read, readWith, lowered, Spec.read, readWith, cut]
    rfl
  | ok parts =>
    rw [cut] at lowered
    rw [read_of_split lowered, read_of_split cut, Text.squeeze_lower, readCut_lower]

variable {s t : List Char}

theorem read_of_sameLetters (same : Text.sameLetters s t = true) :
    (Spec.read s).mapError Error.lowered = (Spec.read t).mapError Error.lowered := by
  have equal : lower s = lower t := beq_iff_eq.mp same
  rw [← read_lower, equal, read_lower]

/-- Texts that differ in the case of their letters are read as the same spec, or break the same
rule, a range with the same values. -/
theorem read_caseless (same : Text.sameLetters s t = true) :
    (∀ spec, Spec.read s = .ok spec ↔ Spec.read t = .ok spec) ∧
      (∀ quantity value low high,
        Spec.read s = .error (.outOfRange quantity value low high) ↔
          Spec.read t = .error (.outOfRange quantity value low high)) ∧
      ((∃ u, Spec.read s = .error (.unrecognizedSpec u)) ↔
        ∃ u, Spec.read t = .error (.unrecognizedSpec u)) := by
  have agree := read_of_sameLetters same
  generalize Spec.read s = x at agree
  generalize Spec.read t = y at agree
  cases x with
  | ok a =>
    cases y with
    | ok b =>
      cases agree
      simp
    | error e => cases agree
  | error e =>
    cases y with
    | ok b => cases agree
    | error e' =>
      have lowered : e.lowered = e'.lowered := Except.error.inj agree
      have kinds : e.kind = e'.kind := by
        rw [← Error.kind_lowered e, lowered, Error.kind_lowered e']
      simp only [Except.error.injEq, Error.eq_unrecognizedSpec_iff]
      refine ⟨by simp, fun quantity value low high => ?_, by rw [kinds]⟩
      rw [← Error.lowered_eq_outOfRange_iff, lowered, Error.lowered_eq_outOfRange_iff]

theorem read_caseless_skip :
    Text.sameLetters "2024-11-4TH <=mo".toList "2024-11-4th <=MO".toList = true ∧
      Spec.read "2024-11-4TH <=mo".toList =
        .ok ⟨.nthWeekday (some 2024) (some 11) 4 .thursday, some ⟨.before, true, .monday⟩⟩ ∧
      Spec.read "2024-11-4th <=MO".toList =
        .ok ⟨.nthWeekday (some 2024) (some 11) 4 .thursday, some ⟨.before, true, .monday⟩⟩ := by
  have same : Text.sameLetters "2024-11-4TH <=mo".toList "2024-11-4th <=MO".toList = true := by
    decide
  have read : Spec.read "2024-11-4TH <=mo".toList =
      .ok ⟨.nthWeekday (some 2024) (some 11) 4 .thursday, some ⟨.before, true, .monday⟩⟩ := by
    rfl
  exact ⟨same, read, ((read_caseless same).1 _).mp read⟩

end Spec

end Almanac
