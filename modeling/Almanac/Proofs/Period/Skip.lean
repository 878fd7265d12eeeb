import Almanac.Period.Resolve
import Almanac.Proofs.Error
import Almanac.Proofs.Period.RoundTrip
import Almanac.Proofs.Text.Tidy

set_option autoImplicit false

/-!
# Skips after a spec

A skip is cut off at its sign, whatever stands before it, and what stands before it is read as if it
stood alone. The skip then moves the day that this resolves to.
-/

namespace Almanac

open Text (Fields Pattern isBlank isLetter squeeze trimEnd)
open Text.Pattern (Matches)
open Writing (WeekdayWord)

namespace Skip

variable {s t u op word : List Char} {f : Fields Field} {direction : Direction}
  {inclusive : Bool} {weekday : Weekday}

def operators : List (List Char × Direction × Bool) :=
  [(['<'], .before, false), (['<', '='], .before, true), (['>'], .after, false),
   (['>', '='], .after, true)]

def sign : Pattern Field :=
  .seq (.one (.among ['<', '>'])) (.opt (.one (.among ['='])))

theorem matches_sign (operator : (op, direction, inclusive) ∈ operators) : Matches sign op [] := by
  have taken : ∀ o ∈ operators, sign.match? o.1 = some [] := by decide
  exact Text.Pattern.matches_of_match? (taken _ operator)

theorem sign_shape (m : Matches sign s f) :
    f = [] ∧ ∃ c t, s = c :: t ∧ (t = [] ∨ t = ['=']) := by
  obtain ⟨c, t, -, last, rfl⟩ := Text.Pattern.matches_one_seq.mp m
  rcases Text.Pattern.matches_opt.mp last with last | ⟨rfl, rfl⟩
  next =>
    have marks : ['='].all (fun d => !isLetter d) = true := by decide
    obtain ⟨d, inside, rfl, rfl⟩ := Text.Pattern.matches_one.mp last
    obtain rfl := List.mem_singleton.mp ((Text.Pattern.has_among_marks marks).mp inside)
    exact ⟨rfl, c, ['='], rfl, .inr rfl⟩
  next => exact ⟨rfl, c, [], rfl, .inl rfl⟩

theorem splits_sign : (Pattern.field Field.direction sign).Splits Form.weekdayWord := by
  refine Text.Pattern.splits_of_extension (· = '=') ?_ ?_
  next =>
    intro s u f g short long c member
    obtain ⟨f', short, -⟩ := Text.Pattern.matches_field.mp short
    obtain ⟨g', long, -⟩ := Text.Pattern.matches_field.mp long
    obtain ⟨-, first, t, rfl, -⟩ := sign_shape short
    obtain ⟨-, first', t', whole, last⟩ := sign_shape long
    have within : c ∈ t' := (List.cons.inj whole).2 ▸ List.mem_append_right t member
    rcases last with rfl | rfl
    next => cases within
    next => exact List.mem_singleton.mp within
  next =>
    rintro c t g m rfl
    obtain ⟨w, -, letters, -⟩ := Form.matches_weekdayWord.mp m
    have notLetter : ¬isLetter '=' = true := by decide
    exact notLetter (letters '=' List.mem_cons_self)

theorem determined_pattern : pattern.Determined := by
  have plain : sign.Determined := Text.Pattern.determined_of_plain fun m => (sign_shape m).1
  exact Text.Pattern.determined_seq splits_sign (Text.Pattern.determined_field plain)
    Form.determined_weekdayWord

theorem match?_operator (operator : (op, direction, inclusive) ∈ operators)
    (named : WeekdayWord weekday word) :
    pattern.match? (op ++ word) = some [(.direction, op), (.weekday, word)] :=
  (Text.Pattern.match?_eq_some_iff determined_pattern).mpr
    ((Matches.field Field.direction (matches_sign operator)).seq named.taken)

theorem build_operator (operator : (op, direction, inclusive) ∈ operators)
    (named : WeekdayWord weekday word) :
    build [(.direction, op), (.weekday, word)] = .ok ⟨direction, inclusive, weekday⟩ := by
  have signs : ∀ o ∈ operators,
      (if o.1.head? = some '<' then Direction.before else .after) = o.2.1 ∧
      decide (o.1.getLast? = some '=') = o.2.2 := by
    decide
  obtain ⟨side, edge⟩ := signs _ operator
  have read : Weekday.read (Form.letters [(.direction, op), (.weekday, word)] .weekday) =
      .ok weekday := named.read
  rw [build, read]
  exact congrArg₂ (fun side edge => Except.ok (Skip.mk side edge weekday)) side edge

theorem cut?_append (noAngle : ∀ c ∈ u, c ∉ ['<', '>']) (nonempty : t ≠ [])
    (matched : pattern.match? t = some f) : cut? (u ++ t) = some (u, f) := by
  induction u with
  | nil =>
    obtain ⟨c, t, rfl⟩ := List.exists_cons_of_ne_nil nonempty
    simp only [List.nil_append, cut?, matched]
  | cons c u ih =>
    have others := ih fun d member => noAngle d (List.mem_cons_of_mem c member)
    have fails := match?_eq_none (noAngle c List.mem_cons_self) (u ++ t)
    simp only [List.cons_append, cut?, fails, others, Option.map_some]

theorem bare_operator (operator : (op, direction, inclusive) ∈ operators)
    (named : WeekdayWord weekday word) :
    op ++ word ≠ [] ∧ ∀ c ∈ op ++ word, isBlank c = false := by
  have signs : ∀ o ∈ operators, o.1 ≠ [] ∧ o.1.all (fun c => !isBlank c) = true := by decide
  obtain ⟨nonempty, bare⟩ := signs _ operator
  refine ⟨List.append_ne_nil_of_left_ne_nil nonempty word, fun c member => ?_⟩
  rcases List.mem_append.mp member with ofSign | ofWord
  next => simpa using List.all_eq_true.mp bare c ofSign
  next => exact Text.not_isBlank_of_isLetter (named.isLetter c ofWord)

theorem noAngle_squeeze (noAngle : ∀ c ∈ u, c ∉ ['<', '>']) :
    ∀ c ∈ squeeze u, c ∉ ['<', '>'] := by
  intro c member
  rcases Text.mem_squeeze member with within | rfl
  next => exact noAngle c within
  next => decide

theorem noAngle_append (noAngle : ∀ c ∈ u, c ∉ ['<', '>']) (blanks : ∀ c ∈ t, isBlank c = true) :
    ∀ c ∈ u ++ t, c ∉ ['<', '>'] := by
  have apart : ['<', '>'].all (fun d => !isBlank d) = true := by decide
  intro c member angle
  rcases List.mem_append.mp member with ofText | ofBlanks
  next => exact noAngle c ofText angle
  next =>
    have bare : isBlank c = false := by simpa using List.all_eq_true.mp apart c angle
    exact Bool.false_ne_true (bare.symm.trans (blanks c ofBlanks))

theorem split_operator (noAngle : ∀ c ∈ u, c ∉ ['<', '>'])
    (operator : (op, direction, inclusive) ∈ operators) (named : WeekdayWord weekday word) :
    split (u ++ (op ++ word)) = .ok (trimEnd u, some ⟨direction, inclusive, weekday⟩) := by
  have cut := cut?_append noAngle (bare_operator operator named).1 (match?_operator operator named)
  rw [split, cut]
  simp only [build_operator operator named]
  rfl

end Skip

namespace Spec

variable {text tidy tidy' base gap op word : List Char} {skip skip' : Option Skip}
  {direction : Direction} {inclusive : Bool} {weekday : Weekday}

def readCut (tidy base : List Char) (skip : Option Skip) : Except Error Spec :=
  match Period.read? Form.all base with
  | some period => period.map fun p => ⟨p, skip⟩
  | none => .error (.unrecognizedSpec tidy)

theorem read_of_split (cut : Skip.split (squeeze text) = .ok (base, skip)) :
    Spec.read text = readCut (squeeze text) base skip := by
  rw [Spec.read, Spec.readWith]
  simp only [cut, bind, Except.bind, readCut]
  cases Period.read? Form.all base with
  | none => rfl
  | some period => cases period <;> rfl

theorem readCut_agrees (tidy tidy' base : List Char) (skip : Skip) :
    Agrees (readCut tidy base (some skip))
      ((readCut tidy' base none).map fun spec => { spec with skip := some skip }) := by
  unfold readCut
  cases Period.read? Form.all base with
  | none => exact .error rfl
  | some period =>
    cases period with
    | error e => exact .error rfl
    | ok p => exact .ok _

theorem skip_of_readCut {spec : Spec} (read : readCut tidy base skip = .ok spec) :
    spec.skip = skip := by
  unfold readCut at read
  split at read
  next period _ =>
    cases period with
    | error e => cases read
    | ok p =>
      cases read
      rfl
  next => cases read

theorem read_of_noAngle (noAngle : ∀ c ∈ text, c ∉ ['<', '>']) :
    Spec.read text = readCut (squeeze text) (squeeze text) none := by
  apply read_of_split
  rw [Skip.split, Skip.cut?_eq_none (Skip.noAngle_squeeze noAngle)]

theorem read_of_skip (noAngle : ∀ c ∈ base, c ∉ ['<', '>'])
    (operator : (op, direction, inclusive) ∈ Skip.operators) (named : WeekdayWord weekday word) :
    Spec.read (base ++ (op ++ word)) = readCut (squeeze (base ++ (op ++ word))) (squeeze base)
      (some ⟨direction, inclusive, weekday⟩) := by
  obtain ⟨nonempty, bare⟩ := Skip.bare_operator operator named
  obtain ⟨gap, blanks, whole⟩ := Text.squeeze_append nonempty bare base
  have tidy := Skip.noAngle_append (Skip.noAngle_squeeze noAngle) blanks
  apply read_of_split
  rw [whole, ← List.append_assoc, Skip.split_operator tidy operator named,
    Text.trimEnd_append_blanks blanks, Text.trimEnd_squeeze]

theorem resolveText_eq (text : List Char) (edge : Edge) (today : Date) (settings : Settings) :
    resolveText text edge today settings =
      Spec.read text >>= fun spec => spec.resolve edge today settings :=
  rfl

theorem resolve_skip {spec : Spec} (bare : spec.skip = none) (skip : Skip) (edge : Edge)
    (today : Date) (settings : Settings) :
    Spec.resolve { spec with skip := some skip } edge today settings =
      (spec.resolve edge today settings).map (Option.map skip.apply) := by
  rw [Spec.resolve, Spec.resolve, bare]
  cases spec.period.resolve edge today settings <;> rfl

/-- A skip behind a text of any kind is cut off it: what the text is read as and what it resolves to
are the same as without the skip, which then moves the day. -/
theorem skip_composes {gap : List Char} (noAngle : ∀ c ∈ base, c ∉ ['<', '>'])
    (blanks : ∀ c ∈ gap, isBlank c = true)
    (operator : (op, direction, inclusive) ∈ Skip.operators) (named : WeekdayWord weekday word) :
    let whole := base ++ gap ++ op ++ word
    let skip : Skip := ⟨direction, inclusive, weekday⟩
    Agrees (Spec.read whole) ((Spec.read base).map fun spec => { spec with skip := some skip }) ∧
      (∀ spec, Spec.read base = .ok spec → spec.skip = none) ∧
      ∀ edge today settings,
        Agrees (resolveText whole edge today settings)
            ((resolveText base edge today settings).map (Option.map skip.apply)) ∧
          ∀ spec, Spec.read base = .ok spec →
            resolveText whole edge today settings =
              (resolveText base edge today settings).map (Option.map skip.apply) := by
  intro whole skip
  have readBase := read_of_noAngle noAngle
  have bare : ∀ spec, Spec.read base = .ok spec → spec.skip = none :=
    fun spec read => skip_of_readCut (readBase ▸ read)
  have readWhole : Agrees (Spec.read whole)
      ((Spec.read base).map fun spec => { spec with skip := some skip }) := by
    have read := read_of_skip (Skip.noAngle_append noAngle blanks) operator named
    rw [Text.squeeze_append_blanks blanks, ← List.append_assoc] at read
    rw [read, readBase]
    exact readCut_agrees _ _ _ skip
  refine ⟨readWhole, bare, fun edge today settings => ?_⟩
  rw [resolveText_eq, resolveText_eq]
  cases read : Spec.read base with
  | error e =>
    rw [read] at readWhole
    exact ⟨readWhole.bind _, fun _ other => nomatch other⟩
  | ok spec =>
    rw [read] at readWhole
    have resolved := resolve_skip (bare spec read) skip edge today settings
    rw [readWhole.eq_ok]
    exact ⟨resolved ▸ .refl _, fun _ _ => resolved⟩

theorem skip_composes_after_ordinal :
    Spec.read "2024-11-4Th  >=moon".toList =
        .ok ⟨.nthWeekday (some 2024) (some 11) 4 .thursday, some ⟨.after, true, .monday⟩⟩ ∧
      ∀ edge today settings,
        resolveText "2024-11-4Th  >=moon".toList edge today settings =
          (resolveText "2024-11-4Th".toList edge today settings).map
            (Option.map (Skip.apply ⟨.after, true, .monday⟩)) := by
  have read : Spec.read "2024-11-4Th".toList =
      .ok ⟨.nthWeekday (some 2024) (some 11) 4 .thursday, none⟩ := by
    rfl
  have noAngle : ∀ c ∈ "2024-11-4Th".toList, c ∉ ['<', '>'] := by simp
  have blanks : ∀ c ∈ "  ".toList, isBlank c = true := by simp
  have operator : (">=".toList, Direction.after, true) ∈ Skip.operators := by
    simp [Skip.operators]
  have named : WeekdayWord .monday "moon".toList := ⟨List.all_eq_true.mp rfl, rfl⟩
  obtain ⟨whole, -, resolved⟩ := skip_composes noAngle blanks operator named
  rw [read] at whole
  exact ⟨whole.eq_ok, fun edge today settings => (resolved edge today settings).2 _ read⟩

end Spec

end Almanac
