import Almanac.Proofs.Period.Skip
import Almanac.Proofs.Text.Script

set_option autoImplicit false

/-!
# Numbers read from digits

The numbers of a period that is read are those that its digits denote, whatever their script, and
lie in their ranges. There is one exception. A year and a day of a month are not checked, and digits
beyond ASCII, which count as the limit of a word, leave -1 and 255 of it.
-/

namespace Almanac

open Text (Fields denoted? saturated squeeze wordLimit)
open Text.Pattern (Matches)
open Period (KnownYear KnownMonth)

namespace Form

variable {form : Form} {base s : List Char} {fields : Fields Field} {field : Field}
  {low high : Nat}

/-- The number that the digits of a field denote. A distance from Easter that is left out is
zero. -/
def denotedIn (fields : Fields Field) (field : Field) : Option Int :=
  match fields.lookup field with
  | some s => denoted? s
  | none => if field = .offset then some 0 else none

/-- Not all characters of the field are digits of ASCII. -/
def Foreign (fields : Fields Field) (field : Field) : Prop :=
  ∃ s ∈ fields.lookup field, s.all Char.isDigit = false

theorem not_foreign_of_absent (absent : fields.lookup field = none) : ¬Foreign fields field := by
  rintro ⟨s, found, -⟩
  rw [absent] at found
  cases found

theorem mem_of_lookup (found : fields.lookup field = some s) : (field, s) ∈ fields := by
  obtain ⟨before, after, rfl, -⟩ := List.lookup_eq_some_iff.mp found
  exact List.mem_append_right before List.mem_cons_self

theorem isRun_of_lookup (m : Matches form.pattern base fields) (h : low ≤ high)
    (only : ∀ part ∈ form.pattern.parts, part.1 = field → part.2 = digits low high)
    (found : fields.lookup field = some s) : IsRun low high s := by
  obtain ⟨-, q, g, part, taken⟩ := Text.Pattern.exists_part m _ (mem_of_lookup found)
  obtain rfl : q = digits low high := only _ part rfl
  exact ((matches_digits h).mp taken).1

theorem lookup_eq_none (m : Matches form.pattern base fields)
    (absent : ∀ part ∈ form.pattern.parts, part.1 ≠ field) : fields.lookup field = none := by
  cases found : fields.lookup field with
  | none => rfl
  | some s =>
    obtain ⟨-, q, g, part, -⟩ := Text.Pattern.exists_part m _ (mem_of_lookup found)
    exact absurd rfl (absent _ part)

theorem run_cases (run : IsRun low high s) (positive : 0 < low) (short : high ≤ 18)
    (found : fields.lookup field = some s) :
    ∃ n : Nat, n < 10 ^ high ∧ denotedIn fields field = some (n : Int) ∧
      (¬Foreign fields field ∧ saturated s = n ∨
        Foreign fields field ∧ saturated s = wordLimit) := by
  have length := run.length
  have nonempty : s ≠ [] := List.ne_nil_of_length_pos (by omega)
  obtain ⟨n, bound, denotes, counted⟩ :=
    Text.saturated_of_decimals nonempty run.decimal (by omega)
  have power : 10 ^ s.length ≤ 10 ^ high := Nat.pow_le_pow_right (by decide) length.2
  refine ⟨n, Nat.lt_of_lt_of_le bound power, by rw [denotedIn, found]; exact denotes, ?_⟩
  split at counted
  next ascii =>
    refine .inl ⟨?_, counted⟩
    rintro ⟨t, same, foreign⟩
    cases found.symm.trans same
    exact Bool.false_ne_true (foreign.symm.trans ascii)
  next foreign => exact .inr ⟨⟨s, found, Bool.eq_false_iff.mpr foreign⟩, counted⟩

theorem kept_cases (keep : Int → Int) (limit : Int)
    (runs : ∀ s, fields.lookup field = some s → IsRun low high s) (positive : 0 < low)
    (short : high ≤ 18) (other : field ≠ .offset)
    (small : ∀ n : Nat, n < 10 ^ high → keep n = n) (large : keep wordLimit = limit)
    (apart : limit < 0 ∨ (10 ^ high : Nat) ≤ limit) :
    let kept := (fields.lookup field).map fun s => keep (saturated s)
    ¬Foreign fields field ∧ denotedIn fields field = kept ∧
        (∀ n ∈ kept, 0 ≤ n ∧ n < (10 ^ high : Nat)) ∨
      Foreign fields field ∧ denotedIn fields field ≠ some limit ∧ kept = some limit := by
  intro kept
  cases found : fields.lookup field with
  | none =>
    have absent : kept = none := by simp only [kept, found, Option.map_none]
    refine .inl ⟨not_foreign_of_absent found, ?_, by rw [absent]; exact fun n here => nomatch here⟩
    rw [denotedIn, found, absent]
    exact if_neg other
  | some s =>
    have whole : kept = some (keep (saturated s)) := by
      simp only [kept, found, Option.map_some]
    obtain ⟨n, bound, denotes, ⟨plain, counted⟩ | ⟨foreign, counted⟩⟩ :=
      run_cases (runs s found) positive short found
    next =>
      rw [counted, small n bound] at whole
      refine .inl ⟨plain, denotes.trans whole.symm, ?_⟩
      rw [whole]
      rintro i ⟨⟩
      exact ⟨Int.natCast_nonneg n, by exact_mod_cast bound⟩
    next =>
      rw [counted, large] at whole
      refine .inr ⟨foreign, ?_, whole⟩
      rw [denotes, ne_eq, Option.some.injEq]
      have bound : (n : Int) < 10 ^ high := by exact_mod_cast bound
      omega

theorem yearOf_cases (m : Matches form.pattern base fields) :
    ¬Foreign fields .year ∧ denotedIn fields .year = yearOf fields ∧ KnownYear (yearOf fields) ∨
      Foreign fields .year ∧ denotedIn fields .year ≠ some (-1) ∧ yearOf fields = some (-1) := by
  have parts : ∀ form ∈ all, ∀ part ∈ form.pattern.parts,
      part.1 = .year → part.2 = digits 4 4 := by
    decide
  have runs := fun s => @isRun_of_lookup _ _ s _ _ _ _ m (by decide) (parts form (mem_all form))
  obtain ⟨plain, faithful, bounds⟩ | foreign :=
    kept_cases (·.bmod 4294967296) (-1) runs (by decide) (by decide) (by decide)
      (fun n bound => Int.bmod_eq_of_le (by omega) (by omega)) (by decide) (.inl (by decide))
  next =>
    refine .inl ⟨plain, faithful, fun y here => ?_⟩
    have range := bounds y here
    omega
  next => exact .inr foreign

theorem dayOf_cases (m : Matches (pattern .month) base fields) :
    ¬Foreign fields .day ∧ denotedIn fields .day = (dayOf fields).map Nat.cast ∧
        (∀ d ∈ dayOf fields, d ≤ 99) ∨
      Foreign fields .day ∧ denotedIn fields .day ≠ some 255 ∧
        (dayOf fields).map Nat.cast = some (255 : Int) := by
  have parts : ∀ part ∈ (pattern .month).parts, part.1 = .day → part.2 = digits 1 2 := by
    decide
  have runs := fun s => @isRun_of_lookup .month _ s _ _ _ _ m (by decide) parts
  have kept : (dayOf fields).map Nat.cast =
      (fields.lookup .day).map fun s => saturated s % 256 := by
    rw [dayOf, Option.map_map]
    refine Option.map_congr fun s _ => ?_
    exact Int.toNat_of_nonneg (Int.emod_nonneg _ (by decide))
  rw [kept]
  obtain ⟨plain, faithful, bounds⟩ | foreign :=
    kept_cases (· % 256) 255 runs (by decide) (by decide) (by decide)
      (fun n bound => Int.emod_eq_of_lt (by omega) (by omega)) (by decide) (.inr (by decide))
  next =>
    refine .inl ⟨plain, faithful, fun d here => ?_⟩
    have range := bounds d (kept ▸ Option.mem_map_of_mem Nat.cast here)
    omega
  next => exact .inr foreign

theorem denotedIn_of_number {n : Int} (h : number fields field = n)
    (within : -wordLimit < n ∧ n < wordLimit) (given : n ≠ 0 ∨ field = .offset) :
    denotedIn fields field = some n := by
  unfold number at h
  unfold denotedIn
  cases found : fields.lookup field with
  | none =>
    rw [found] at h
    cases h
    exact if_pos (given.resolve_left (not_not_intro rfl))
  | some s =>
    rw [found] at h
    cases h
    exact Text.denoted?_of_saturated within

theorem of_number {high : Int} (range : 1 ≤ number fields field ∧ number fields field ≤ high)
    (fits : high < wordLimit) :
    denotedIn fields field = some ((number fields field).toNat : Int) ∧
      (1 ≤ (number fields field).toNat ∧ ((number fields field).toNat : Int) ≤ high) ∧
        ∀ s, fields.lookup field = some s → saturated s < wordLimit := by
  have positive : ((number fields field).toNat : Int) = number fields field :=
    Int.toNat_of_nonneg (by omega)
  have faithful : denotedIn fields field = some (number fields field) :=
    denotedIn_of_number rfl (by unfold wordLimit at fits ⊢; omega) (.inl (by omega))
  refine ⟨by rw [positive, faithful], by omega, fun s found => ?_⟩
  have same : number fields field = saturated s := by rw [number, found]; rfl
  omega

theorem of_partOf {quantity : Quantity} {low high : Int} {n : Option Nat}
    (h : partOf quantity low high field fields = .ok n) (bounds : 0 < low ∧ high < wordLimit)
    (other : field ≠ .offset) :
    denotedIn fields field = n.map Nat.cast ∧ (∀ i ∈ n, low ≤ i ∧ i ≤ high) ∧
      ∀ s, fields.lookup field = some s → saturated s < wordLimit := by
  unfold partOf at h
  unfold denotedIn
  split at h
  next s found =>
    obtain ⟨range, built⟩ := checkRange_bind_eq_ok.mp h
    cases built
    have positive : ((saturated s).toNat : Int) = saturated s := Int.toNat_of_nonneg (by omega)
    rw [found, Option.map_some, positive]
    refine ⟨Text.denoted?_of_saturated ⟨by unfold wordLimit; omega, by omega⟩, ?_, ?_⟩
    next =>
      rintro i ⟨⟩
      omega
    next =>
      rintro t ⟨⟩
      omega
  next none =>
    cases h
    rw [none]
    exact ⟨if_neg other, (fun i here => nomatch here), (fun s here => nomatch here)⟩

theorem not_foreign_of_below
    (runs : ∀ s, fields.lookup field = some s → IsRun low high s) (positive : 0 < low)
    (short : high ≤ 18) (below : ∀ s, fields.lookup field = some s → saturated s < wordLimit) :
    ¬Foreign fields field := by
  cases found : fields.lookup field with
  | none => exact not_foreign_of_absent found
  | some s =>
    obtain ⟨n, -, -, ⟨plain, -⟩ | ⟨-, counted⟩⟩ := run_cases (runs s found) positive short found
    next => exact plain
    next => exact absurd counted (Int.ne_of_lt (below s found))

theorem of_monthOf {month : Option Nat} (h : monthOf fields = .ok month) :
    denotedIn fields .month = month.map Nat.cast ∧ KnownMonth month := by
  obtain ⟨same, known, -⟩ := @of_partOf _ _ .monthNumber 1 12 _ h (by decide) (by decide)
  refine ⟨same, fun m here => ?_⟩
  have range := known m here
  omega

theorem of_nthOf {nth : Int} (h : nthOf fields = .ok nth) :
    denotedIn fields .nth = some nth ∧ 1 ≤ nth.natAbs ∧ nth.natAbs ≤ 5 := by
  unfold nthOf at h
  dsimp only at h
  split at h
  next range =>
    cases h
    exact ⟨denotedIn_of_number rfl (by unfold wordLimit; omega) (.inl (by omega)), range⟩
  next => cases h

theorem not_foreign_day (m : Matches form.pattern base fields)
    (other : form ∉ [Form.dayOfYear, .month, .isoWeek]) : ¬Foreign fields .day := by
  have parts : ∀ form ∈ all, form ∉ [Form.dayOfYear, .month, .isoWeek] →
      ∀ part ∈ form.pattern.parts, part.1 ≠ .day := by
    decide
  exact not_foreign_of_absent (lookup_eq_none m (parts form (mem_all form) other))

end Form

namespace Period

open Form

variable {form : Form} {base : List Char} {fields : Fields Field} {p : Period}

/-- The numbers of a period that are written in digits, with the fields that they are read from. -/
def numbers : Period → List (Field × Option Int)
  | .dayOfYear y day => [(.year, y), (.day, some day)]
  | .month y m day => [(.year, y), (.month, some m), (.day, day.map Nat.cast)]
  | .isoWeek y week day => [(.year, y), (.number, some week), (.day, day.map Nat.cast)]
  | .quarter y q => [(.year, y), (.number, some q)]
  | .half y h => [(.year, y), (.number, some h)]
  | .year y => [(.year, some y)]
  | .halfMonth y m _ => [(.year, y), (.month, m.map Nat.cast)]
  | .weekOfMonth y m _ => [(.year, y), (.month, m.map Nat.cast)]
  | .nthWeekday y m nth _ => [(.year, y), (.month, m.map Nat.cast), (.nth, some nth)]
  | .easter y offset => [(.year, y), (.offset, some offset)]
  | .relative .. => []
  | .forever => []
  | .never => []

def Faithful (fields : Fields Field) (p : Period) : Prop :=
  ∀ number ∈ p.numbers, number.2 = denotedIn fields number.1

/-- What the limit of a word leaves of a year, and of the day in a month. -/
def leftOver? : Period → Field → Option Int
  | _, .year => some (-1)
  | .month .., .day => some 255
  | _, _ => none

def Reads (fields : Fields Field) (p : Period) (number : Field × Option Int) : Prop :=
  number.2 = denotedIn fields number.1 ∨
    Foreign fields number.1 ∧ ∃ left ∈ p.leftOver? number.1, number.2 = some left

structure Sound (fields : Fields Field) (p : Period) : Prop where
  reads : ∀ number ∈ p.numbers, p.Reads fields number
  exact_iff : p.Faithful fields ∧ p.Documented ↔ ¬Foreign fields .year ∧ ¬Foreign fields .day

theorem sound_of_year {rest : List (Field × Option Int)} {inRange : Prop}
    (m : Matches form.pattern base fields) (numbers : p.numbers = (.year, yearOf fields) :: rest)
    (documented : p.Documented ↔ KnownYear (yearOf fields) ∧ inRange)
    (reads : ∀ number ∈ rest, p.Reads fields number)
    (others : (∀ number ∈ rest, number.2 = denotedIn fields number.1) ∧ inRange ↔
      ¬Foreign fields .day) : Sound fields p := by
  have faithful_iff : p.Faithful fields ↔ yearOf fields = denotedIn fields .year ∧
      ∀ number ∈ rest, number.2 = denotedIn fields number.1 := by
    rw [Faithful, numbers, List.forall_mem_cons]
  rcases yearOf_cases m with ⟨plain, faithful, known⟩ | ⟨foreign, other, wrapped⟩
  next =>
    refine ⟨?_, ?_⟩
    next =>
      rw [numbers]
      exact List.forall_mem_cons.mpr ⟨.inl faithful.symm, reads⟩
    next =>
      rw [faithful_iff, documented, ← others]
      constructor
      next => exact fun ⟨⟨_, same⟩, _, within⟩ => ⟨plain, same, within⟩
      next => exact fun ⟨_, same, within⟩ => ⟨⟨faithful.symm, same⟩, known, within⟩
  next =>
    refine ⟨?_, ?_⟩
    next =>
      rw [numbers]
      exact List.forall_mem_cons.mpr ⟨.inr ⟨foreign, -1, rfl, wrapped⟩, reads⟩
    next =>
      rw [faithful_iff]
      constructor
      next => exact fun ⟨⟨same, _⟩, _⟩ => absurd (same.symm.trans wrapped) other
      next => exact fun ⟨plain, _⟩ => absurd foreign plain

theorem sound_of_checked {rest : List (Field × Option Int)} {inRange : Prop}
    (m : Matches form.pattern base fields) (numbers : p.numbers = (.year, yearOf fields) :: rest)
    (documented : p.Documented ↔ KnownYear (yearOf fields) ∧ inRange) (within : inRange)
    (plain : ¬Foreign fields .day)
    (faithful : ∀ number ∈ rest, number.2 = denotedIn fields number.1) : Sound fields p :=
  sound_of_year m numbers documented (fun number member => .inl (faithful number member))
    ⟨fun _ => plain, fun _ => ⟨faithful, within⟩⟩

theorem sound_dayOfYear (m : Matches (pattern .dayOfYear) base fields)
    (built : build .dayOfYear fields = .ok p) : Sound fields p := by
  obtain ⟨range, built⟩ := checkRange_bind_eq_ok.mp built
  cases built
  have parts : ∀ part ∈ (pattern .dayOfYear).parts, part.1 = .day → part.2 = digits 3 3 := by
    decide
  have runs := fun s => @isRun_of_lookup .dayOfYear _ s _ _ _ _ m (by decide) parts
  obtain ⟨faithful, within, below⟩ := of_number range (by decide)
  exact sound_of_checked m rfl Iff.rfl (by omega)
    (not_foreign_of_below runs (by decide) (by decide) below)
    (List.forall_mem_singleton.mpr faithful.symm)

theorem sound_month (m : Matches (pattern .month) base fields)
    (built : build .month fields = .ok p) : Sound fields p := by
  obtain ⟨range, built⟩ := checkRange_bind_eq_ok.mp built
  cases built
  obtain ⟨faithful, within, -⟩ := of_number range (by decide)
  rcases dayOf_cases m with ⟨plain, same, short⟩ | ⟨foreign, other, wrapped⟩
  next =>
    refine sound_of_checked m rfl Iff.rfl ⟨by omega, short⟩ plain ?_
    exact List.forall_mem_cons.mpr ⟨faithful.symm, List.forall_mem_singleton.mpr same.symm⟩
  next =>
    refine sound_of_year m rfl Iff.rfl ?_ ⟨?_, fun plain => absurd foreign plain⟩
    next =>
      exact List.forall_mem_cons.mpr ⟨.inl faithful.symm,
        List.forall_mem_singleton.mpr (.inr ⟨foreign, 255, rfl, wrapped⟩)⟩
    next =>
      rintro ⟨same, -⟩
      have day := (List.forall_mem_singleton.mp (List.forall_mem_cons.mp same).2).symm
      exact absurd (day.trans wrapped) other

theorem sound_isoWeek (m : Matches (pattern .isoWeek) base fields)
    (built : build .isoWeek fields = .ok p) : Sound fields p := by
  obtain ⟨range, built⟩ := checkRange_bind_eq_ok.mp built
  obtain ⟨day, part, built⟩ := bind_eq_ok_iff.mp built
  cases built
  have parts : ∀ part ∈ (pattern .isoWeek).parts, part.1 = .day → part.2 = digits 1 1 := by
    decide
  have runs := fun s => @isRun_of_lookup .isoWeek _ s _ _ _ _ m (by decide) parts
  obtain ⟨faithful, within, -⟩ := of_number range (by decide)
  obtain ⟨same, inWeek, below⟩ := @of_partOf _ _ .isoDay 1 7 _ part (by decide) (by decide)
  refine sound_of_checked m rfl Iff.rfl ⟨by omega, fun d here => ?_⟩
    (not_foreign_of_below runs (by decide) (by decide) below)
    (List.forall_mem_cons.mpr ⟨faithful.symm, List.forall_mem_singleton.mpr same.symm⟩)
  have range := inWeek d here
  omega

theorem sound_quarter (m : Matches (pattern .quarter) base fields)
    (built : build .quarter fields = .ok p) : Sound fields p := by
  obtain ⟨range, built⟩ := checkRange_bind_eq_ok.mp built
  cases built
  obtain ⟨faithful, within, -⟩ := of_number range (by decide)
  exact sound_of_checked m rfl Iff.rfl (by omega) (not_foreign_day m (by decide))
    (List.forall_mem_singleton.mpr faithful.symm)

theorem sound_half (m : Matches (pattern .half) base fields)
    (built : build .half fields = .ok p) : Sound fields p := by
  obtain ⟨range, built⟩ := checkRange_bind_eq_ok.mp built
  cases built
  obtain ⟨faithful, within, -⟩ := of_number range (by decide)
  exact sound_of_checked m rfl Iff.rfl (by omega) (not_foreign_day m (by decide))
    (List.forall_mem_singleton.mpr faithful.symm)

theorem sound_year (m : Matches (pattern .year) base fields)
    (built : build .year fields = .ok p) : Sound fields p := by
  cases built
  obtain ⟨-, fields_eq⟩ := (matches_number (show 4 ≤ 4 by decide)).mp m
  obtain ⟨y, year⟩ : ∃ y, yearOf fields = some y := by
    rw [fields_eq]
    exact ⟨_, rfl⟩
  have documented : Documented (.year y) ↔ KnownYear (yearOf fields) ∧ True := by
    simp [year, KnownYear, Documented]
  rw [year, Option.getD_some]
  exact sound_of_checked m (by rw [numbers, year]) documented trivial
    (not_foreign_day m (by decide)) (List.forall_mem_nil _)

theorem sound_halfMonth (m : Matches (pattern .halfMonth) base fields)
    (built : build .halfMonth fields = .ok p) : Sound fields p := by
  obtain ⟨month, part, built⟩ := bind_eq_ok_iff.mp built
  cases built
  obtain ⟨same, known⟩ := of_monthOf part
  exact sound_of_checked m rfl Iff.rfl known (not_foreign_day m (by decide))
    (List.forall_mem_singleton.mpr same.symm)

theorem romanOf_bounds (fields : Fields Field) : 1 ≤ romanOf fields ∧ romanOf fields ≤ 6 := by
  unfold romanOf
  split
  next i found =>
    have bound := (List.idxOf?_eq_some_iff.mp found).1
    have length : romanNumerals.length = 6 := rfl
    omega
  next => decide

theorem sound_weekOfMonth (m : Matches (pattern .weekOfMonth) base fields)
    (built : build .weekOfMonth fields = .ok p) : Sound fields p := by
  obtain ⟨month, part, built⟩ := bind_eq_ok_iff.mp built
  cases built
  obtain ⟨same, known⟩ := of_monthOf part
  exact sound_of_checked m rfl Iff.rfl ⟨known, romanOf_bounds fields⟩
    (not_foreign_day m (by decide)) (List.forall_mem_singleton.mpr same.symm)

theorem sound_nthWeekday (m : Matches (pattern .nthWeekday) base fields)
    (built : build .nthWeekday fields = .ok p) : Sound fields p := by
  obtain ⟨month, part, built⟩ := bind_eq_ok_iff.mp built
  obtain ⟨nth, ordinal, built⟩ := bind_eq_ok_iff.mp built
  obtain ⟨weekday, -, built⟩ := bind_eq_ok_iff.mp built
  cases built
  obtain ⟨same, known⟩ := of_monthOf part
  obtain ⟨faithful, range⟩ := of_nthOf ordinal
  exact sound_of_checked m rfl Iff.rfl ⟨known, range⟩ (not_foreign_day m (by decide))
    (List.forall_mem_cons.mpr ⟨same.symm, List.forall_mem_singleton.mpr faithful.symm⟩)

theorem sound_easter (m : Matches (pattern .easter) base fields)
    (built : build .easter fields = .ok p) : Sound fields p := by
  obtain ⟨range, built⟩ := checkRange_bind_eq_ok.mp built
  cases built
  have faithful : denotedIn fields .offset = some (number fields .offset) :=
    denotedIn_of_number rfl (by unfold wordLimit; omega) (.inr rfl)
  exact sound_of_checked m rfl Iff.rfl range (not_foreign_day m (by decide))
    (List.forall_mem_singleton.mpr faithful.symm)

theorem documented_relative (built : build .relative fields = .ok p) :
    p.numbers = [] ∧ p.Documented := by
  rw [build] at built
  split at built
  next =>
    cases built
    exact ⟨rfl, .inr (.inr rfl)⟩
  next =>
    obtain ⟨chunk, -, built⟩ := bind_eq_ok_iff.mp built
    cases built
    refine ⟨rfl, ?_⟩
    unfold Documented offsetOf
    dsimp only
    split
    next => exact .inr (.inl rfl)
    next =>
      split
      next => exact .inr (.inr rfl)
      next => exact .inl rfl

theorem sound_of_words (m : Matches form.pattern base fields)
    (words : form ∈ [Form.relative, .forever, .never]) (none : p.numbers = [])
    (documented : p.Documented) : Sound fields p := by
  have parts : ∀ form ∈ [Form.relative, .forever, .never], ∀ part ∈ form.pattern.parts,
      part.1 ≠ .year := by
    decide
  have apart : ∀ form ∈ [Form.relative, .forever, .never],
      form ∉ [Form.dayOfYear, .month, .isoWeek] := by
    decide
  have plainYear := not_foreign_of_absent (lookup_eq_none m (parts form words))
  have plainDay := not_foreign_day m (apart form words)
  refine ⟨?_, fun _ => ⟨plainYear, plainDay⟩, fun _ => ⟨?_, documented⟩⟩
  next => rw [none]; exact List.forall_mem_nil _
  next => rw [Faithful, none]; exact List.forall_mem_nil _

theorem sound_of_build (m : Matches form.pattern base fields) (built : form.build fields = .ok p) :
    Sound fields p := by
  cases form with
  | dayOfYear => exact sound_dayOfYear m built
  | month => exact sound_month m built
  | isoWeek => exact sound_isoWeek m built
  | quarter => exact sound_quarter m built
  | half => exact sound_half m built
  | year => exact sound_year m built
  | halfMonth => exact sound_halfMonth m built
  | weekOfMonth => exact sound_weekOfMonth m built
  | nthWeekday => exact sound_nthWeekday m built
  | easter => exact sound_easter m built
  | relative =>
    obtain ⟨none, documented⟩ := documented_relative built
    exact sound_of_words m (by decide) none documented
  | forever =>
    cases built
    exact sound_of_words m (by decide) rfl trivial
  | never =>
    cases built
    exact sound_of_words m (by decide) rfl trivial

end Period

theorem Skip.exists_of_cut? {s before : List Char} {fields : Fields Field}
    (h : cut? s = some (before, fields)) : ∃ t, s = before ++ t ∧ Matches pattern t fields := by
  induction s generalizing before with
  | nil => cases h
  | cons c s ih =>
    unfold cut? at h
    split at h
    next taken =>
      cases h
      exact ⟨c :: s, rfl, Text.Pattern.matches_of_match? taken⟩
    next =>
      obtain ⟨⟨v, f⟩, found, same⟩ := Option.map_eq_some_iff.mp h
      cases same
      obtain ⟨t, rfl, m⟩ := ih found
      exact ⟨t, rfl, m⟩

theorem Skip.prefix_of_split {s u : List Char} {skip : Option Skip} (h : split s = .ok (u, skip)) :
    u <+: s := by
  unfold split at h
  split at h
  next before fields found =>
    obtain ⟨skip, -, built⟩ := bind_eq_ok_iff.mp h
    cases built
    obtain ⟨t, rfl, -⟩ := exists_of_cut? found
    exact (Text.isPrefix_trimEnd before).trans (List.prefix_append before t)
  next =>
    cases h
    exact List.prefix_rfl

namespace Spec

open Form (Foreign)

variable {text : List Char} {spec : Spec}

structure ReadAs (text : List Char) (spec : Spec) (base : List Char) (form : Form)
    (fields : Fields Field) : Prop where
  cut : Skip.split (squeeze text) = .ok (base, spec.skip)
  matched : form.pattern.match? base = some fields
  built : form.build fields = .ok spec.period

theorem exists_readAs (read : Spec.read text = .ok spec) :
    ∃ base form fields, ReadAs text spec base form fields := by
  cases cut : Skip.split (squeeze text) with
  | error e =>
    rw [Spec.read, Spec.readWith, cut] at read
    cases read
  | ok parts =>
    obtain ⟨base, skip⟩ := parts
    rw [read_of_split cut] at read
    have same := skip_of_readCut read
    unfold readCut at read
    split at read
    next period found =>
      obtain ⟨form, -, taken⟩ := List.exists_of_findSome?_eq_some found
      obtain ⟨fields, matched, rfl⟩ := Option.map_eq_some_iff.mp taken
      refine ⟨base, form, fields, by rw [cut, same], matched, ?_⟩
      cases built : form.build fields with
      | error e =>
        rw [built] at read
        cases read
      | ok period =>
        rw [built] at read
        cases read
        rfl
    next => cases read

theorem ReadAs.pieces {base : List Char} {form : Form} {fields : Fields Field}
    (h : ReadAs text spec base form fields) : ∀ cut ∈ fields, cut.2 <:+: text := by
  have m := Text.Pattern.matches_of_match? h.matched
  have inText : base <:+: text :=
    Text.infix_of_squeeze (fun c member => (Form.inner_of_matches m c member).not_isBlank)
      (Skip.prefix_of_split h.cut)
  exact fun cut member => (Text.Pattern.exists_part m cut member).1.trans inText

/-- Each number that is read from a text is the one that its digits denote, a piece of the text, and
lies in its range, unless it is a year or a day of a month in digits beyond ASCII: such a year is
read as -1 and such a day as 255. -/
theorem read_faithful_iff (read : Spec.read text = .ok spec) :
    ∃ base form fields, ReadAs text spec base form fields ∧
      (∀ cut ∈ fields, cut.2 <:+: text) ∧
      (∀ number ∈ spec.period.numbers, spec.period.Reads fields number) ∧
      (spec.period.Faithful fields ∧ spec.period.Documented ↔
        ¬Foreign fields .year ∧ ¬Foreign fields .day) := by
  obtain ⟨base, form, fields, readAs⟩ := exists_readAs read
  have sound :=
    Period.sound_of_build (Text.Pattern.matches_of_match? readAs.matched) readAs.built
  exact ⟨base, form, fields, readAs, readAs.pieces, sound.reads, sound.exact_iff⟩

theorem read_faithful_iff_day_of_month :
    ∃ base form fields,
      ReadAs "2024-2-30 <Fr".toList ⟨.month (some 2024) 2 (some 30), some ⟨.before, false, .friday⟩⟩
        base form fields ∧
      (∀ cut ∈ fields, cut.2 <:+: "2024-2-30 <Fr".toList) ∧
      (∀ number ∈ [(Field.year, some 2024), (.month, some 2), (.day, some 30)],
        Period.Reads fields (.month (some 2024) 2 (some 30)) number) ∧
      (Period.Faithful fields (.month (some 2024) 2 (some 30)) ∧
        Period.Documented (.month (some 2024) 2 (some 30)) ↔
          ¬Foreign fields .year ∧ ¬Foreign fields .day) := by
  have read : Spec.read "2024-2-30 <Fr".toList =
      .ok ⟨.month (some 2024) 2 (some 30), some ⟨.before, false, .friday⟩⟩ := by
    rfl
  exact read_faithful_iff read

theorem read_year_beyond_ascii :
    Spec.read "\u0662\u0660\u0662\u0664".toList = .ok ⟨.year (-1), none⟩ ∧
      denoted? "\u0662\u0660\u0662\u0664".toList = some 2024 ∧
      ¬Period.Documented (.year (-1)) := by
  have read : Spec.read "\u0662\u0660\u0662\u0664".toList = .ok ⟨.year (-1), none⟩ := by
    rfl
  have denotes : denoted? "\u0662\u0660\u0662\u0664".toList = some 2024 := by
    rfl
  exact ⟨read, denotes, fun range => absurd range.1 (by decide)⟩

end Spec

end Almanac
