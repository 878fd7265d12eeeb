import Almanac.Proofs.Period.Build
import Almanac.Proofs.Period.Taken

set_option autoImplicit false

/-!
# Reading what is written

Each part of the notation is taken by its part of a form and gives the number that was written, so
that every text of a period in the documented ranges is read as this period.
-/

namespace Almanac

open Text (Fields Numeral Pattern fold lower saturated wordLimit isLetter)
open Text.Pattern (Matches oneOf opt word)
open Form (Gives IsRun IsSeparator digits lettered numberFirst numberLast value)

namespace Writing

variable {low high n : Nat} {i : Int} {k : Option Int} {s : List Char} {d : Char}

theorem isRun_of_numeral (number : Numeral n s) (places : low ≤ s.length ∧ s.length ≤ high) :
    IsRun low high s :=
  ⟨number.isDecimal, places⟩

theorem NumberFirst.taken (h : low ≤ high) (short : high ≤ 18) (name : Field)
    (written : NumberFirst low high k s) :
    ∃ f, Matches (numberFirst name low high) s f ∧ Gives name k f := by
  cases written with
  | absent => exact ⟨[], (Form.matches_numberFirst h).mpr (.inl ⟨rfl, rfl⟩), Form.gives_none name⟩
  | @present n run c number places separator =>
    have run' := isRun_of_numeral number places
    exact ⟨[(name, run)],
      (Form.matches_numberFirst h).mpr (.inr ⟨run, c, run', separator, rfl, rfl⟩),
      Form.gives_some (number.saturated_short (Nat.le_trans places.2 short))⟩

theorem NumberLast.taken (h : low ≤ high) (short : high ≤ 18) (name : Field)
    (written : NumberLast low high k s) :
    ∃ f, Matches (numberLast name low high) s f ∧ Gives name k f := by
  cases written with
  | absent => exact ⟨[], (Form.matches_numberLast h).mpr (.inl ⟨rfl, rfl⟩), Form.gives_none name⟩
  | @present n run c separator number places =>
    have run' := isRun_of_numeral number places
    exact ⟨[(name, run)],
      (Form.matches_numberLast h).mpr (.inr ⟨c, run, separator, run', rfl, rfl⟩),
      Form.gives_some (number.saturated_short (Nat.le_trans places.2 short))⟩

theorem Lettered.taken (h : low ≤ high) (short : high ≤ 18) (letter : d.isLower = true)
    (written : Lettered d low high n s) :
    ∃ f, Matches (lettered d (digits low high)) s f ∧ Gives .number (some (n : Int)) f := by
  have folded {c : Char} (same : c.toLower = d) : fold c = d :=
    (Text.fold_of_isLower (same ▸ letter)).trans same
  cases written with
  | @after run c number places same =>
    have run' := isRun_of_numeral number places
    exact ⟨[(.number, run)],
      (Form.matches_lettered h).mpr ⟨run, c, run', folded same, .inl rfl, rfl⟩,
      Form.gives_some (number.saturated_short (Nat.le_trans places.2 short))⟩
  | @before run c same number places =>
    have run' := isRun_of_numeral number places
    exact ⟨[(.number, run)],
      (Form.matches_lettered h).mpr ⟨run, c, run', folded same, .inr rfl, rfl⟩,
      Form.gives_some (number.saturated_short (Nat.le_trans places.2 short))⟩

theorem Signed.taken (fits : -wordLimit ≤ i ∧ i ≤ wordLimit) (written : Signed i s) :
    Matches Form.signed s [] ∧ saturated s = i := by
  cases written with
  | plus number =>
    have taken := Form.matches_signed.mpr
      ⟨'+', _, .inr rfl, number.nonempty, number.isDecimal, rfl, rfl⟩
    exact ⟨taken, number.saturated_plus fits.2⟩
  | minus number =>
    have taken := Form.matches_signed.mpr
      ⟨'-', _, .inl rfl, number.nonempty, number.isDecimal, rfl, rfl⟩
    exact ⟨taken, number.saturated_minus (by omega)⟩

theorem Ordinal.taken (fits : -wordLimit ≤ i ∧ i ≤ wordLimit) (written : Ordinal i s) :
    Matches Form.ordinal s [] ∧ saturated s = i := by
  cases written with
  | unsigned number =>
    exact ⟨Form.matches_ordinal.mpr (.inr ⟨number.nonempty, number.isDecimal, rfl⟩),
      number.saturated fits.2⟩
  | signed number =>
    have ⟨taken, value⟩ := number.taken fits
    exact ⟨Form.matches_ordinal.mpr (.inl taken), value⟩

theorem WeekdayWord.isLetter {w : Weekday} (written : WeekdayWord w s) :
    ∀ c ∈ s, isLetter c = true := by
  intro c member
  rw [Text.isLetter_iff]
  rcases Text.isAlpha_iff.mp (written.letters c member) with upper | lower
  next => exact .inl (Text.isUpper_iff.mp upper)
  next => exact .inr (.inl (Text.isLower_iff.mp lower))

theorem WeekdayWord.taken {w : Weekday} (written : WeekdayWord w s) :
    Matches Form.weekdayWord s [(.weekday, s)] :=
  Form.matches_weekdayWord.mpr ⟨w,
    Text.map_fold_of_lower written.initials (Form.isLower_initials w), written.isLetter, rfl⟩

theorem read_of_initials {w : Weekday} (letters : ∀ c ∈ s, isLetter c = true)
    (initials : lower (s.take 2) = w.initials) : Weekday.read s = .ok w := by
  have named : Weekday.ofName? s = some w := by
    rw [Weekday.ofName?, Text.trim_of_letters letters, initials]
    cases w <;> rfl
  rw [Weekday.read, named]

theorem WeekdayWord.read {w : Weekday} (written : WeekdayWord w s) : Weekday.read s = .ok w :=
  read_of_initials written.isLetter written.initials

theorem taken_relation (relation : (lower s, i) ∈ relations) :
    Matches (Pattern.field Field.relation (oneOf (Form.relations.map word))) s
      [(.relation, s)] := by
  have known : ∀ r ∈ relations, r.1 ∈ Form.relations ∧ r.1.all Char.isLower = true := by
    decide
  obtain ⟨inside, lowered⟩ := known _ relation
  have folded := Text.map_fold_of_lower rfl lowered
  exact Form.matches_words.mpr ⟨folded ▸ inside, rfl⟩

theorem taken_chunk (name : lower s ∈ Form.chunkWords) :
    Matches (Pattern.field Field.chunk (oneOf (Form.chunkWords.map word))) s
      [(.chunk, s)] := by
  have folded := Text.map_fold_of_lower rfl (Form.isLower_chunkWords _ name)
  exact Form.matches_words.mpr ⟨folded ▸ name, rfl⟩

theorem NamesChunk.mem_chunkWords {chunk : Chunk} {w : List Char} (h : NamesChunk chunk w) :
    w ∈ Form.chunkWords := by
  rcases h with rfl | ⟨-, rfl⟩
  next => cases chunk <;> decide
  next => decide

end Writing

namespace Period

open Writing Form

variable {p : Period} {s text : List Char} {d : Char} {form : Form} {f : Fields Field}

theorem read_of_built (form : Form) (taken : Matches form.pattern s f)
    (built : form.build f = .ok p) : Spec.read s = .ok ⟨p, none⟩ := by
  rw [read_of_matches taken, built]
  rfl

theorem read_dayOfYear {y : Option Int} {day : Nat} {t : List Char}
    (before : NumberFirst 4 4 y s) (number : Numeral day t) (places : t.length = 3)
    (documented : Documented (.dayOfYear y day)) :
    Spec.read (s ++ t) = .ok ⟨.dayOfYear y day, none⟩ := by
  obtain ⟨f, taken, year⟩ := before.taken (by decide) (by decide) .year
  have run := isRun_of_numeral number (show 3 ≤ t.length ∧ t.length ≤ 3 by omega)
  have matched : Matches (pattern .dayOfYear) (s ++ t) (f ++ [(.day, t)]) :=
    taken.seq ((matches_number (by decide)).mpr ⟨run, rfl⟩)
  have last : Gives .day (some (day : Int)) [(.day, t)] :=
    gives_some (number.saturated_short (by omega))
  exact read_of_built .dayOfYear matched (build_dayOfYear (year.value_first rfl)
    ((year.value_rest (by decide) _).trans last.own) documented)

theorem read_month {y : Option Int} {m : Nat} {day : Option Nat} {t u : List Char}
    (before : NumberFirst 4 4 y s) (number : Numeral m t) (places : t.length ≤ 2)
    (after : NumberLast 1 2 (day.map Nat.cast) u) (documented : Documented (.month y m day)) :
    Spec.read (s ++ (t ++ u)) = .ok ⟨.month y m day, none⟩ := by
  obtain ⟨f, taken, year⟩ := before.taken (by decide) (by decide) .year
  obtain ⟨g, takenLast, last⟩ := after.taken (by decide) (by decide) .day
  have run := isRun_of_numeral number ⟨List.length_pos_iff.mpr number.nonempty, places⟩
  have matched : Matches (pattern .month) (s ++ (t ++ u)) (f ++ ([(.month, t)] ++ g)) :=
    taken.seq (((matches_number (by decide)).mpr ⟨run, rfl⟩).seq takenLast)
  have middle : Gives .month (some (m : Int)) [(.month, t)] :=
    gives_some (number.saturated_short (by omega))
  refine read_of_built .month matched (build_month ?_ ?_ ?_ documented)
  next => exact year.value_first (last.only .year (by decide))
  next =>
    rw [year.value_rest (by decide)]
    exact middle.value_first (last.only .month (by decide))
  next => rw [year.value_rest (by decide), middle.value_rest (by decide), last.own]

theorem read_isoWeek {y : Option Int} {week : Nat} {day : Option Nat} {t u : List Char}
    (before : NumberFirst 4 4 y s) (number : Lettered 'w' 1 2 week t)
    (after : NumberLast 1 1 (day.map Nat.cast) u) (documented : Documented (.isoWeek y week day)) :
    Spec.read (s ++ (t ++ u)) = .ok ⟨.isoWeek y week day, none⟩ := by
  obtain ⟨f, taken, year⟩ := before.taken (by decide) (by decide) .year
  obtain ⟨g, takenNumber, middle⟩ := number.taken (by decide) (by decide) rfl
  obtain ⟨e, takenLast, last⟩ := after.taken (by decide) (by decide) .day
  have matched : Matches (pattern .isoWeek) (s ++ (t ++ u)) (f ++ (g ++ e)) :=
    taken.seq (takenNumber.seq takenLast)
  refine read_of_built .isoWeek matched (build_isoWeek ?_ ?_ ?_ documented)
  next =>
    apply year.value_first
    rw [middle.lookup_append (by decide), last.only .year (by decide)]
  next =>
    rw [year.value_rest (by decide)]
    exact middle.value_first (last.only .number (by decide))
  next => rw [year.value_rest (by decide), middle.value_rest (by decide), last.own]

-- Quarters and halves are told apart by their letter alone.
theorem read_yearLettered (form : Form) {y : Option Int} {n : Nat} {t : List Char}
    (before : NumberFirst 4 4 y s) (number : Lettered d 1 1 n t) (letter : d.isLower = true)
    (shape : form.pattern = .seq yearFirst (lettered d (digits 1 1)))
    (built : ∀ fields, value fields .year = y → value fields .number = some (n : Int) →
      form.build fields = .ok p) :
    Spec.read (s ++ t) = .ok ⟨p, none⟩ := by
  obtain ⟨f, taken, year⟩ := before.taken (by decide) (by decide) .year
  obtain ⟨g, takenNumber, last⟩ := number.taken (by decide) (by decide) letter
  have matched : Matches form.pattern (s ++ t) (f ++ g) := shape ▸ taken.seq takenNumber
  refine read_of_built form matched (built _ ?_ ?_)
  next => exact year.value_first (last.only .year (by decide))
  next => rw [year.value_rest (by decide), last.own]

theorem read_year {y : Nat} (number : Numeral y s) (places : s.length = 4)
    (documented : Documented (.year y)) : Spec.read s = .ok ⟨.year y, none⟩ := by
  have run := isRun_of_numeral number (show 4 ≤ s.length ∧ s.length ≤ 4 by omega)
  have matched : Matches (pattern .year) s [(.year, s)] :=
    (matches_number (by decide)).mpr ⟨run, rfl⟩
  have year : Gives .year (some (y : Int)) [(.year, s)] :=
    gives_some (number.saturated_short (by omega))
  exact read_of_built .year matched (build_year year.own documented)

theorem taken_yearMonth {y m : Option Int} {q : Pattern Field} {rest : Fields Field}
    {t u : List Char} (before : NumberFirst 4 4 y s) (next : NumberFirst 1 2 m t)
    (last : Matches q u rest) (noYear : rest.lookup .year = none)
    (noMonth : rest.lookup .month = none) :
    ∃ f, Matches (.seq yearFirst (.seq monthNext q)) (s ++ (t ++ u)) f ∧
      value f .year = y ∧ value f .month = m ∧
        ∀ field, field ≠ .year → field ≠ .month → f.lookup field = rest.lookup field := by
  obtain ⟨f, takenYear, year⟩ := before.taken (by decide) (by decide) .year
  obtain ⟨g, takenMonth, month⟩ := next.taken (by decide) (by decide) .month
  refine ⟨f ++ (g ++ rest), takenYear.seq (takenMonth.seq last), year.value_first ?_, ?_, ?_⟩
  next => rw [month.lookup_append (by decide), noYear]
  next => rw [year.value_rest (by decide), month.value_first noMonth]
  next =>
    intro field notYear notMonth
    rw [year.lookup_append notYear, month.lookup_append notMonth]

theorem read_halfMonth {y : Option Int} {m : Option Nat} {h : MonthHalf} {t u : List Char}
    (before : NumberFirst 4 4 y s) (next : NumberFirst 1 2 (m.map Nat.cast) t)
    (letter : lower u = lower h.name.toList) (documented : Documented (.halfMonth y m h)) :
    Spec.read (s ++ (t ++ u)) = .ok ⟨.halfMonth y m h, none⟩ := by
  have takenLetter : Matches (Pattern.field Field.letter (.one (.among ['a', 'b']))) u
      [(.letter, u)] := by
    have lowered : (lower h.name.toList).all Char.isLower = true := by cases h <;> rfl
    have known : lower h.name.toList ∈ ['a', 'b'].map (fun c => [c]) := by cases h <;> decide
    have folded := Text.map_fold_of_lower letter lowered
    obtain ⟨d, inside, same⟩ := List.mem_map.mp known
    rw [← same] at folded
    obtain ⟨c, rfl, rfl⟩ := List.map_eq_singleton_iff.mp folded
    exact .field Field.letter (.one (Text.Pattern.has_among.mpr inside))
  obtain ⟨f, matched, year, month, others⟩ := taken_yearMonth before next takenLetter rfl rfl
  have half : lower (letters f .letter) = lower h.name.toList := by
    rw [letters, others .letter (by decide) (by decide)]
    exact letter
  exact read_of_built .halfMonth matched (build_halfMonth year month half documented)

theorem read_weekOfMonth {y : Option Int} {m : Option Nat} {week : Nat} {t u : List Char}
    (before : NumberFirst 4 4 y s) (next : NumberFirst 1 2 (m.map Nat.cast) t)
    (roman : (lower u, week) ∈ romans) (documented : Documented (.weekOfMonth y m week)) :
    Spec.read (s ++ (t ++ u)) = .ok ⟨.weekOfMonth y m week, none⟩ := by
  have takenRoman : Matches (Pattern.field Field.number (oneOf (romanNumerals.map word))) u
      [(.number, u)] := by
    have known : ∀ r ∈ romans, r.1 ∈ romanNumerals := by decide
    have inside := known _ roman
    have folded := Text.map_fold_of_lower rfl (isLower_romanNumerals _ inside)
    exact matches_words.mpr ⟨folded ▸ inside, rfl⟩
  obtain ⟨f, matched, year, month, others⟩ := taken_yearMonth before next takenRoman rfl rfl
  have numeral : (lower (letters f .number), week) ∈ romans := by
    rw [letters, others .number (by decide) (by decide)]
    exact roman
  exact read_of_built .weekOfMonth matched (build_weekOfMonth year month numeral documented)

theorem read_nthWeekday {y : Option Int} {m : Option Nat} {nth : Int} {w : Weekday}
    {t u v : List Char} (before : NumberFirst 4 4 y s) (next : NumberFirst 1 2 (m.map Nat.cast) t)
    (ordinal : Ordinal nth u) (word : WeekdayWord w v)
    (documented : Documented (.nthWeekday y m nth w)) :
    Spec.read (s ++ (t ++ (u ++ v))) = .ok ⟨.nthWeekday y m nth w, none⟩ := by
  have fits : -wordLimit ≤ nth ∧ nth ≤ wordLimit := by
    have range := documented.2.2
    unfold wordLimit
    omega
  obtain ⟨takenOrdinal, counted⟩ := ordinal.taken fits
  have takenDay : Matches (.seq (.field Field.nth Form.ordinal) weekdayWord) (u ++ v)
      [(.nth, u), (.weekday, v)] := (Matches.field Field.nth takenOrdinal).seq word.taken
  obtain ⟨f, matched, year, month, others⟩ := taken_yearMonth before next takenDay rfl rfl
  have number : value f .nth = some nth := by
    rw [value, others .nth (by decide) (by decide), ← counted]
    rfl
  have day : Weekday.read (letters f .weekday) = .ok w := by
    rw [letters, others .weekday (by decide) (by decide)]
    exact word.read
  exact read_of_built .nthWeekday matched (build_nthWeekday year month number day documented)

theorem read_easter {y : Option Int} {offset : Int} {t u : List Char} {e : Fields Field}
    (before : NumberFirst 4 4 y s) (letter : lower t = ['e'])
    (away : Matches (opt (.field .offset signed)) u e)
    (noYear : e.lookup .year = none) (distance : (value e .offset).getD 0 = offset)
    (documented : Documented (.easter y offset)) :
    Spec.read (s ++ (t ++ u)) = .ok ⟨.easter y offset, none⟩ := by
  obtain ⟨f, taken, year⟩ := before.taken (by decide) (by decide) .year
  have takenLetter : Matches (Form.letter 'e') t [] := by
    have folded := Text.map_fold_of_lower letter (by decide)
    obtain ⟨c, rfl, same⟩ := List.map_eq_singleton_iff.mp folded
    exact matches_letter.mpr ⟨c, same, rfl, rfl⟩
  have matched : Matches (pattern .easter) (s ++ (t ++ u)) (f ++ ([] ++ e)) :=
    taken.seq (takenLetter.seq away)
  refine read_of_built .easter matched (build_easter (year.value_first noYear) ?_ documented)
  rw [year.value_rest (by decide)]
  exact distance

theorem read_relativeWords {chunk : Chunk} {offset : Int} {t u : List Char}
    (relation : Matches (Pattern.field Field.relation (oneOf (Form.relations.map word))) s
      [(.relation, s)])
    (between : IsLink t)
    (name : Matches (Pattern.field Field.chunk (oneOf (chunkWords.map word))) u [(.chunk, u)])
    (built : build .relative [(.relation, s), (.chunk, u)] = .ok (.relative chunk offset)) :
    Spec.read (s ++ (t ++ u)) = .ok ⟨.relative chunk offset, none⟩ := by
  have takenLink : Matches link t [] := matches_link.mpr ⟨between, rfl⟩
  have matched : Matches (pattern .relative) (s ++ (t ++ u)) [(.relation, s), (.chunk, u)] :=
    relation.seq (takenLink.seq name)
  exact read_of_built .relative matched built

theorem read_of_written (written : Written p text) (documented : p.Documented) :
    Spec.read text = .ok ⟨p, none⟩ := by
  cases written with
  | dayOfYear before number places => exact read_dayOfYear before number places documented
  | month before number places after => exact read_month before number places after documented
  | isoWeek before number after => exact read_isoWeek before number after documented
  | quarter before number =>
    exact read_yearLettered .quarter before number rfl rfl fun _ year quarter =>
      build_quarter year quarter documented
  | half before number =>
    exact read_yearLettered .half before number rfl rfl fun _ year half =>
      build_half year half documented
  | year number places => exact read_year number places documented
  | halfMonth before next letter => exact read_halfMonth before next letter documented
  | weekOfMonth before next roman => exact read_weekOfMonth before next roman documented
  | nthWeekday before next ordinal word =>
    exact read_nthWeekday before next ordinal word documented
  | @easter y s t before letter =>
    have nothing : Matches (opt (.field Field.offset signed)) [] [] :=
      Text.Pattern.matches_opt.mpr (.inr ⟨rfl, rfl⟩)
    have read := read_easter before letter nothing rfl rfl documented
    rwa [List.append_nil] at read
  | @easterOffset y offset s t u before letter number =>
    have fits : -wordLimit ≤ offset ∧ offset ≤ wordLimit := by
      have range := documented.2
      unfold wordLimit
      omega
    obtain ⟨takenNumber, counted⟩ := number.taken fits
    have away : Matches (opt (.field Field.offset signed)) u [(.offset, u)] :=
      Text.Pattern.matches_opt.mpr (.inl (.field Field.offset takenNumber))
    exact read_easter before letter away rfl counted documented
  | relative relation link name =>
    exact read_relativeWords (taken_relation relation) link (taken_chunk name.mem_chunkWords)
      (build_relative relation name)
  | @tomorrow s t u relation link morrow =>
    have inWords : lower u ∈ chunkWords := morrow ▸ List.mem_cons_self
    have known : (lower s, (0 : Int)) ∈ Writing.relations := by
      rw [relation]
      decide
    exact read_relativeWords (taken_relation known) link (taken_chunk inWords)
      (build_tomorrow morrow)
  | forever word =>
    have matched : Matches (pattern .forever) text [] :=
      Text.Pattern.matches_word.mpr ⟨Text.map_fold_of_lower word (by decide), rfl⟩
    exact read_of_built .forever matched rfl
  | never word =>
    have matched : Matches (pattern .never) text [] :=
      Text.Pattern.matches_word.mpr ⟨Text.map_fold_of_lower word (by decide), rfl⟩
    exact read_of_built .never matched rfl

/-- Reading undoes the notation: a period in the documented ranges has texts, and each of them is
read as this period, without a skip. -/
theorem read_undoes_written (documented : p.Documented) :
    (∃ text, Written p text) ∧ ∀ text, Written p text → Spec.read text = .ok ⟨p, none⟩ :=
  ⟨exists_written documented, fun _ written => read_of_written written documented⟩

-- The second dash is the sign of the ordinal.
theorem read_undoes_written_fourth_last_thursday :
    Documented (.nthWeekday (some 2024) (some 11) (-4) .thursday) ∧
      Written (.nthWeekday (some 2024) (some 11) (-4) .thursday) "2024/11--4Thurs".toList ∧
      Spec.read "2024/11--4Thurs".toList =
        .ok ⟨.nthWeekday (some 2024) (some 11) (-4) .thursday, none⟩ := by
  have documented : Documented (.nthWeekday (some 2024) (some 11) (-4) .thursday) := by
    refine ⟨?_, ?_, by decide⟩
    next =>
      rintro _ ⟨⟩
      decide
    next =>
      rintro _ ⟨⟩
      decide
  have yearNumber : Numeral 2024 "2024".toList := ⟨by decide, List.all_eq_true.mp rfl, rfl⟩
  have monthNumber : Numeral 11 "11".toList := ⟨by decide, List.all_eq_true.mp rfl, rfl⟩
  have nthNumber : Numeral 4 "4".toList := ⟨by decide, List.all_eq_true.mp rfl, rfl⟩
  have year : NumberFirst 4 4 (some 2024) "2024/".toList :=
    .present yearNumber (by decide) (.inr rfl)
  have month : NumberFirst 1 2 (some 11) "11-".toList :=
    .present monthNumber (by decide) (.inl rfl)
  have nth : Ordinal (-4) "-4".toList := .signed (.minus nthNumber)
  have word : WeekdayWord .thursday "Thurs".toList :=
    ⟨List.all_eq_true.mp rfl, by decide⟩
  have written : Written (.nthWeekday (some 2024) (some 11) (-4) .thursday)
      "2024/11--4Thurs".toList :=
    @Written.nthWeekday _ (some 11) _ _ _ _ _ _ year month nth word
  exact ⟨documented, written, (read_undoes_written documented).2 _ written⟩

end Period

end Almanac
