import Almanac.Proofs.Period.Faithful
import Almanac.Proofs.Period.Ranges
import Almanac.Proofs.Text.Case

set_option autoImplicit false

/-!
# How a text fails to be read

A text that is not read has a number out of its range or no form at all, with one exception. The
patterns take the long s and the Kelvin sign for letters of ASCII, and the names of weekdays and
chunks are looked up without them, so that a name in such letters is taken by a form, or by a skip,
and is not known.
-/

namespace Almanac

open Text (Fields Disguised fold lower squeeze)
open Text.Pattern (Matches)

namespace Weekday

variable {s : List Char} {f : Fields Field}

theorem read_of_plain (m : Matches Form.weekdayWord s f) (plain : ¬Disguised (s.take 2)) :
    ∃ w, read s = .ok w := by
  obtain ⟨w, folded, letters, -⟩ := Form.matches_weekdayWord.mp m
  have initials : lower (s.take 2) = w.initials := by rw [← Text.map_fold_eq_lower plain, folded]
  exact ⟨w, Writing.read_of_initials letters initials⟩

theorem read_of_disguised (m : Matches Form.weekdayWord s f) (disguised : Disguised (s.take 2)) :
    read s = .error (.unknownWeekday s) := by
  obtain ⟨-, -, letters, -⟩ := Form.matches_weekdayWord.mp m
  have unnamed : ofName? s = none := by
    rw [ofName?, Text.trim_of_letters letters, List.find?_eq_none]
    intro w _ same
    exact Text.lower_ne_of_disguised disguised (Form.isLower_initials w) (beq_iff_eq.mp same).symm
  rw [read, unnamed, Text.trim_of_letters letters]

end Weekday

namespace Chunk

variable {s : List Char}

theorem read_of_plain (taken : s.map fold ∈ Form.chunkWords) (plain : ¬Disguised s)
    (other : lower s ≠ Form.morrow) : ∃ c, read (lower s) = .ok c := by
  have known : ∀ w ∈ Form.chunkWords, w ≠ Form.morrow → (read w).isOk = true := by decide
  rw [Text.map_fold_eq_lower plain] at taken
  have named := known _ taken other
  cases found : read (lower s) with
  | ok c => exact ⟨c, rfl⟩
  | error e =>
    rw [found] at named
    cases named

theorem read_of_disguised (taken : s.map fold ∈ Form.chunkWords) (disguised : Disguised s) :
    read (lower s) = .error (.unknownChunk (lower s)) := by
  have letters := Form.isLetter_of_folded rfl (Form.isLower_chunkWords _ taken)
  have name : lower (Text.trim (lower s)) = lower s := by
    rw [Text.trim_lower, Text.lower_lower, Text.trim_of_letters letters]
  have isLower_name : ∀ c ∈ all, c.name.toList.all Char.isLower = true := by decide
  have unnamed : (all.find? fun c => c.name.toList == lower s) = none := by
    rw [List.find?_eq_none]
    intro c member same
    exact Text.lower_ne_of_disguised disguised (isLower_name c member) (beq_iff_eq.mp same).symm
  rw [read, name, if_neg (Text.lower_ne_of_disguised disguised (by decide)), unnamed]

end Chunk

namespace Form

variable {form : Form} {p q : Text.Pattern Field} {fields : Fields Field} {field : Field}
  {s : List Char} {e : Error}

theorem letters_of_matches (m : Matches p s fields) (always : field ∈ p.required)
    (only : ∀ part ∈ p.parts, part.1 = field → .field field part.2 = q) :
    (∃ f, Matches q (letters fields field) f) ∧ letters fields field <:+: s := by
  obtain ⟨t, found⟩ := Option.isSome_iff_exists.mp (Text.Pattern.isSome_lookup m field always)
  obtain ⟨piece, part, g, ofPattern, taken⟩ := Text.Pattern.exists_part m _ (mem_of_lookup found)
  rw [letters, found, Option.getD_some]
  exact ⟨⟨_, only _ ofPattern rfl ▸ taken.field field⟩, piece⟩

theorem weekday_of_matches (m : Matches (pattern .nthWeekday) s fields) :
    (∃ f, Matches weekdayWord (letters fields .weekday) f) ∧ letters fields .weekday <:+: s :=
  letters_of_matches m (by decide) (by decide)

theorem chunk_of_matches (m : Matches (pattern .relative) s fields) :
    (letters fields .chunk).map fold ∈ chunkWords ∧ letters fields .chunk <:+: s := by
  have only : ∀ part ∈ (pattern .relative).parts, part.1 = .chunk →
      Text.Pattern.field Field.chunk part.2 =
        .field .chunk (.oneOf (chunkWords.map Text.Pattern.word)) := by
    decide
  obtain ⟨⟨f, taken⟩, piece⟩ := letters_of_matches m (by decide) only
  exact ⟨(matches_words.mp taken).1, piece⟩

inductive Misnamed (fields : Fields Field) : Form → Error → Prop
  | weekday (within : ∀ r ∈ ranges .nthWeekday, r.Within fields)
      (disguised : Disguised ((letters fields .weekday).take 2)) :
      Misnamed fields .nthWeekday (.unknownWeekday (letters fields .weekday))
  | chunk (disguised : Disguised (letters fields .chunk)) :
      Misnamed fields .relative (.unknownChunk (lower (letters fields .chunk)))

def ordinalOf (fields : Fields Field) : Except Error (Option Nat × Int) := do
  let month ← monthOf fields
  return (month, ← nthOf fields)

theorem checked_ordinalOf (m : Matches (pattern .nthWeekday) s fields) :
    Checked (ranges .nthWeekday) fields (ordinalOf fields) := by
  have given := Text.Pattern.isSome_lookup m .nth (by decide)
  exact checked_monthOf.bind fun _ => (checked_nthOf given).bind fun _ => checked_ok _

theorem build_nthWeekday_eq (fields : Fields Field) : build .nthWeekday fields = (do
    let (m, n) ← ordinalOf fields
    return .nthWeekday (yearOf fields) m n (← Weekday.read (letters fields .weekday))) := by
  rw [build, ordinalOf]
  cases monthOf fields with
  | error e => rfl
  | ok month => cases nthOf fields <;> rfl

theorem build_of_misnamed (m : Matches form.pattern s fields) (h : Misnamed fields form e) :
    form.build fields = .error e := by
  cases h with
  | weekday within disguised =>
    obtain ⟨⟨f, taken⟩, -⟩ := weekday_of_matches m
    obtain ⟨numbers, passed⟩ := (checked_ordinalOf m).exists_ok within
    rw [build_nthWeekday_eq, passed, Weekday.read_of_disguised taken disguised]
    rfl
  | chunk disguised =>
    have taken := (chunk_of_matches m).1
    have other : lower (letters fields .chunk) ≠ morrow :=
      Text.lower_ne_of_disguised disguised (by decide)
    rw [build, if_neg other, Chunk.read_of_disguised taken disguised]
    rfl

theorem checked_nthWeekday (m : Matches (pattern .nthWeekday) s fields)
    (plain : ¬Disguised ((letters fields .weekday).take 2)) :
    Checked (ranges .nthWeekday) fields (build .nthWeekday fields) := by
  obtain ⟨⟨f, taken⟩, -⟩ := weekday_of_matches m
  obtain ⟨w, named⟩ := Weekday.read_of_plain taken plain
  rw [build_nthWeekday_eq, named]
  exact (checked_ordinalOf m).bind fun _ => checked_ok _

theorem checked_relative (m : Matches (pattern .relative) s fields)
    (plain : ¬Disguised (letters fields .chunk)) :
    Checked (ranges .relative) fields (build .relative fields) := by
  rw [build]
  split
  next => exact checked_ok _
  next other =>
    obtain ⟨c, named⟩ := Chunk.read_of_plain (chunk_of_matches m).1 plain other
    rw [named]
    exact checked_ok _

theorem checked_or_misnamed (m : Matches form.pattern s fields) :
    Checked form.ranges fields (form.build fields) ∨ ∃ e, Misnamed fields form e := by
  cases form with
  | nthWeekday =>
    by_cases disguised : Disguised ((letters fields .weekday).take 2)
    next =>
      -- The name is looked up only when the numbers are in their ranges.
      have checked := checked_ordinalOf m
      rw [build_nthWeekday_eq]
      generalize ordinalOf fields = x at checked ⊢
      cases checked with
      | ok numbers within => exact .inr ⟨_, .weekday within disguised⟩
      | error member given outside => exact .inl (.error member given outside)
    next => exact .inl (checked_nthWeekday m disguised)
  | relative =>
    by_cases disguised : Disguised (letters fields .chunk)
    next => exact .inr ⟨_, .chunk disguised⟩
    next => exact .inl (checked_relative m disguised)
  | _ => exact .inl (checked_build m (by decide))

end Form

namespace Skip

variable {s before : List Char} {fields : Fields Field} {e : Error}

theorem weekday_of_matches (m : Matches pattern s fields) :
    (∃ f, Matches Form.weekdayWord (Form.letters fields .weekday) f) ∧
      Form.letters fields .weekday <:+: s :=
  Form.letters_of_matches m (by decide) (by decide)

theorem split_of_disguised (cut : cut? s = some (before, fields))
    (disguised : Disguised ((Form.letters fields .weekday).take 2)) :
    split s = .error (.unknownWeekday (Form.letters fields .weekday)) := by
  obtain ⟨t, -, m⟩ := exists_of_cut? cut
  obtain ⟨⟨f, taken⟩, -⟩ := weekday_of_matches m
  rw [split, cut]
  simp only [build, Weekday.read_of_disguised taken disguised]
  rfl

theorem disguised_of_split (h : split s = .error e) : ∃ before fields,
    cut? s = some (before, fields) ∧ Disguised ((Form.letters fields .weekday).take 2) := by
  unfold split at h
  split at h
  next before fields cut =>
    refine ⟨before, fields, cut, not_not.mp fun plain => ?_⟩
    obtain ⟨t, -, m⟩ := exists_of_cut? cut
    obtain ⟨⟨f, taken⟩, -⟩ := weekday_of_matches m
    obtain ⟨w, named⟩ := Weekday.read_of_plain taken plain
    simp only [build, named] at h
    cases h
  next => cases h

end Skip

namespace Spec

variable {text : List Char} {e : Error}

/-- What reading a text comes to when its names are known. -/
inductive Outcome (text : List Char) : Except Error Spec → Prop
  | read {spec : Spec} {base : List Char} {form : Form} {fields : Fields Field}
      (readAs : ReadAs text spec base form fields) (within : ∀ r ∈ form.ranges, r.Within fields) :
      Outcome text (.ok spec)
  | outOfRange {base : List Char} {skip : Option Skip} {form : Form} {fields : Fields Field}
      {r : Range} {n : Int} (cut : Skip.split (squeeze text) = .ok (base, skip))
      (matched : form.pattern.match? base = some fields) (member : r ∈ form.ranges)
      (given : Form.value fields r.field = some n) (outside : ¬r.Holds n) :
      Outcome text (.error (r.error n))
  | unrecognized {base : List Char} {skip : Option Skip}
      (cut : Skip.split (squeeze text) = .ok (base, skip))
      (unmatched : ∀ form : Form, form.pattern.match? base = none) :
      Outcome text (.error (.unrecognizedSpec (squeeze text)))

/-- A name in the text that its skip or its form takes and that is not known. -/
inductive Misnamed (text : List Char) : Error → Prop
  | skip {before : List Char} {fields : Fields Field}
      (cut : Skip.cut? (squeeze text) = some (before, fields))
      (disguised : Disguised ((Form.letters fields .weekday).take 2)) :
      Misnamed text (.unknownWeekday (Form.letters fields .weekday))
  | period {base : List Char} {skip : Option Skip} {form : Form} {fields : Fields Field}
      {e : Error} (cut : Skip.split (squeeze text) = .ok (base, skip))
      (matched : form.pattern.match? base = some fields) (misnamed : form.Misnamed fields e) :
      Misnamed text e

theorem read_of_misnamed (h : Misnamed text e) : Spec.read text = .error e := by
  cases h with
  | skip cut disguised =>
    rw [Spec.read, readWith, Skip.split_of_disguised cut disguised]
    rfl
  | period cut matched misnamed =>
    have built := Form.build_of_misnamed (Text.Pattern.matches_of_match? matched) misnamed
    rw [read_of_split cut, readCut, Form.read?_eq_of_match? (Form.mem_all _) matched, built]
    rfl

theorem outcome_or_misnamed (text : List Char) :
    Outcome text (Spec.read text) ∨ ∃ e, Misnamed text e := by
  cases cut : Skip.split (squeeze text) with
  | error e =>
    obtain ⟨before, fields, found, disguised⟩ := Skip.disguised_of_split cut
    exact .inr ⟨_, .skip found disguised⟩
  | ok parts =>
    obtain ⟨base, skip⟩ := parts
    rw [read_of_split cut, readCut]
    by_cases taken : ∃ form : Form, (form.pattern.match? base).isSome = true
    next =>
      obtain ⟨form, taken⟩ := taken
      obtain ⟨fields, matched⟩ := Option.isSome_iff_exists.mp taken
      rw [Form.read?_eq_of_match? (Form.mem_all _) matched]
      obtain checked | ⟨e, misnamed⟩ :=
        Form.checked_or_misnamed (Text.Pattern.matches_of_match? matched)
      next =>
        cases built : form.build fields with
        | ok p =>
          have readAs : ReadAs text ⟨p, skip⟩ base form fields := ⟨cut, matched, built⟩
          rw [built] at checked
          cases checked with
          | ok _ within => exact .inl (.read readAs within)
        | error e =>
          rw [built] at checked
          cases checked with
          | error member given outside => exact .inl (.outOfRange cut matched member given outside)
      next => exact .inr ⟨e, .period cut matched misnamed⟩
    next =>
      have unmatched (form : Form) : form.pattern.match? base = none :=
        Option.not_isSome_iff_eq_none.mp fun found => taken ⟨form, found⟩
      rw [Form.read?_eq_none unmatched]
      exact .inl (.unrecognized cut unmatched)

theorem not_outcome_of_misnamed (h : Misnamed text e) : ¬Outcome text (.error e) := by
  intro outcome
  cases h with
  | skip => cases outcome
  | period _ _ misnamed =>
    cases misnamed with
    | weekday => cases outcome
    | chunk => cases outcome

theorem disguised_of_misnamed (h : Misnamed text e) : Disguised text := by
  cases h with
  | @skip before _ cut disguised =>
    obtain ⟨t, whole, m⟩ := Skip.exists_of_cut? cut
    have word := disguised.of_infix (List.take_prefix 2 _).isInfix
    have inTidy : t <:+: squeeze text := whole ▸ (List.suffix_append before t).isInfix
    exact Text.disguised_of_squeeze (word.of_infix ((Skip.weekday_of_matches m).2.trans inTidy))
  | period cut matched misnamed =>
    have m := Text.Pattern.matches_of_match? matched
    have inTidy := (Skip.prefix_of_split cut).isInfix
    cases misnamed with
    | weekday _ disguised =>
      have word := disguised.of_infix (List.take_prefix 2 _).isInfix
      exact Text.disguised_of_squeeze (word.of_infix ((Form.weekday_of_matches m).2.trans inTidy))
    | chunk disguised =>
      exact Text.disguised_of_squeeze
        (disguised.of_infix ((Form.chunk_of_matches m).2.trans inTidy))

end Spec

end Almanac
