import Almanac.Proofs.Date.Checked
import Almanac.Proofs.Period.Written

set_option autoImplicit false

/-!
# What the forms build

A form whose fields are numbers in the documented ranges builds the period of these numbers.
-/

namespace Almanac

open Text (Fields lower saturated isLetter)

namespace Form

open Period (KnownYear KnownMonth)

variable {f g fields : Fields Field} {field name : Field} {s : List Char}

def value (fields : Fields Field) (field : Field) : Option Int :=
  (fields.lookup field).map saturated

structure Gives (name : Field) (n : Option Int) (f : Fields Field) : Prop where
  own : value f name = n
  only : ∀ field, field ≠ name → f.lookup field = none

theorem gives_none (name : Field) : Gives name none [] :=
  ⟨rfl, fun _ _ => rfl⟩

theorem gives_some {i : Int} (h : saturated s = i) : Gives name (some i) [(name, s)] where
  own := by rw [value, List.lookup_cons_self, Option.map_some, h]
  only := by
    intro field other
    rw [List.lookup_cons, beq_eq_false_iff_ne.mpr other, List.lookup_nil]

theorem Gives.lookup_append {n : Option Int} (h : Gives name n f) (other : field ≠ name)
    (g : Fields Field) : (f ++ g).lookup field = g.lookup field := by
  rw [List.lookup_append, h.only field other, Option.none_or]

theorem Gives.value_first {n : Option Int} (h : Gives name n f) (none : g.lookup name = none) :
    value (f ++ g) name = n := by
  rw [value, List.lookup_append, none, Option.or_none, ← value, h.own]

theorem Gives.value_rest {n : Option Int} (h : Gives name n f) (other : field ≠ name)
    (g : Fields Field) : value (f ++ g) field = value g field := by
  rw [value, h.lookup_append other, value]

theorem number_of_value {i : Int} (h : value fields field = some i) : number fields field = i := by
  rw [number, ← value, h, Option.getD_some]

theorem yearOf_of_value {year : Option Int} (h : value fields .year = year)
    (known : KnownYear year) : yearOf fields = year := by
  have low : yearOf fields = (value fields .year).map (·.bmod 4294967296) := by
    rw [yearOf, value, Option.map_map]
    rfl
  rw [low, h]
  cases year with
  | none => rfl
  | some y =>
    have range := known y rfl
    rw [Option.map_some, Int.bmod_eq_of_le (by omega) (by omega)]

def partOf (quantity : Quantity) (low high : Int) (field : Field) (fields : Fields Field) :
    Except Error (Option Nat) :=
  match fields.lookup field with
  | some s => do
      checkRange quantity (saturated s) low high
      return some (saturated s).toNat
  | none => .ok none

theorem partOf_of_value {quantity : Quantity} {low high : Int} {n : Option Nat}
    (h : value fields field = n.map Nat.cast) (known : ∀ i ∈ n, low ≤ i ∧ i ≤ high) :
    partOf quantity low high field fields = .ok n := by
  rw [value] at h
  unfold partOf
  split
  next s found =>
    rw [found, Option.map_some] at h
    obtain ⟨i, rfl, same⟩ := Option.map_eq_some_iff.mp h.symm
    refine checkRange_bind_eq_ok.mpr ⟨same ▸ known i rfl, ?_⟩
    rw [← same, Int.toNat_natCast]
    rfl
  next none =>
    rw [none, Option.map_none] at h
    rw [Option.map_eq_none_iff.mp h.symm]

theorem monthOf_of_value {month : Option Nat} (h : value fields .month = month.map Nat.cast)
    (known : KnownMonth month) : monthOf fields = .ok month :=
  @partOf_of_value _ _ .monthNumber 1 12 _ h fun m same => by
    have range := known m same
    omega

theorem isoDayOf_of_value {day : Option Nat} (h : value fields .day = day.map Nat.cast)
    (known : ∀ d ∈ day, 1 ≤ d ∧ d ≤ 7) : isoDayOf fields = .ok day :=
  @partOf_of_value _ _ .isoDay 1 7 _ h fun d same => by
    have range := known d same
    omega

theorem dayOf_of_value {day : Option Nat} (h : value fields .day = day.map Nat.cast)
    (known : ∀ d ∈ day, d ≤ 99) : dayOf fields = day := by
  have low : dayOf fields = (value fields .day).map fun i => (i % 256).toNat := by
    rw [dayOf, value, Option.map_map]
    rfl
  rw [low, h]
  cases day with
  | none => rfl
  | some d =>
    have range := known d rfl
    rw [Option.map_some, Option.map_some, Int.emod_eq_of_lt (by omega) (by omega),
      Int.toNat_natCast]

theorem build_dayOfYear {year : Option Int} {day : Nat} (hy : value fields .year = year)
    (hd : value fields .day = some (day : Int)) (h : Period.Documented (.dayOfYear year day)) :
    build .dayOfYear fields = .ok (.dayOfYear year day) := by
  obtain ⟨known, low, high⟩ := h
  rw [build, yearOf_of_value hy known, number_of_value hd]
  exact checkRange_bind_eq_ok.mpr ⟨by omega, rfl⟩

theorem build_month {year : Option Int} {month : Nat} {day : Option Nat}
    (hy : value fields .year = year) (hm : value fields .month = some (month : Int))
    (hd : value fields .day = day.map Nat.cast) (h : Period.Documented (.month year month day)) :
    build .month fields = .ok (.month year month day) := by
  obtain ⟨known, inYear, short⟩ := h
  rw [build, yearOf_of_value hy known, number_of_value hm, dayOf_of_value hd short]
  exact checkRange_bind_eq_ok.mpr ⟨by omega, rfl⟩

theorem build_isoWeek {year : Option Int} {week : Nat} {day : Option Nat}
    (hy : value fields .year = year) (hw : value fields .number = some (week : Int))
    (hd : value fields .day = day.map Nat.cast) (h : Period.Documented (.isoWeek year week day)) :
    build .isoWeek fields = .ok (.isoWeek year week day) := by
  obtain ⟨known, inYear, inWeek⟩ := h
  rw [build, yearOf_of_value hy known, number_of_value hw, isoDayOf_of_value hd inWeek]
  exact checkRange_bind_eq_ok.mpr ⟨by omega, rfl⟩

theorem build_quarter {year : Option Int} {quarter : Nat} (hy : value fields .year = year)
    (hq : value fields .number = some (quarter : Int))
    (h : Period.Documented (.quarter year quarter)) :
    build .quarter fields = .ok (.quarter year quarter) := by
  obtain ⟨known, low, high⟩ := h
  rw [build, yearOf_of_value hy known, number_of_value hq]
  exact checkRange_bind_eq_ok.mpr ⟨by omega, rfl⟩

theorem build_half {year : Option Int} {half : Nat} (hy : value fields .year = year)
    (hh : value fields .number = some (half : Int)) (h : Period.Documented (.half year half)) :
    build .half fields = .ok (.half year half) := by
  obtain ⟨known, low, high⟩ := h
  rw [build, yearOf_of_value hy known, number_of_value hh]
  exact checkRange_bind_eq_ok.mpr ⟨by omega, rfl⟩

theorem build_year {year : Int} (hy : value fields .year = some year)
    (h : Period.Documented (.year year)) : build .year fields = .ok (.year year) := by
  have known : KnownYear (some year) := fun y same => Option.mem_some.mp same ▸ h
  rw [build, yearOf_of_value hy known, Option.getD_some]

theorem build_halfMonth {year : Option Int} {month : Option Nat} {half : MonthHalf}
    (hy : value fields .year = year) (hm : value fields .month = month.map Nat.cast)
    (hh : lower (letters fields .letter) = lower half.name.toList)
    (h : Period.Documented (.halfMonth year month half)) :
    build .halfMonth fields = .ok (.halfMonth year month half) := by
  have halves : halfOf fields = half := by
    rw [halfOf, hh]
    cases half with
    | a => rfl
    | b => rfl
  rw [build, yearOf_of_value hy h.1, monthOf_of_value hm h.2, halves]
  rfl

theorem build_weekOfMonth {year : Option Int} {month : Option Nat} {week : Nat}
    (hy : value fields .year = year) (hm : value fields .month = month.map Nat.cast)
    (hw : (lower (letters fields .number), week) ∈ Writing.romans)
    (h : Period.Documented (.weekOfMonth year month week)) :
    build .weekOfMonth fields = .ok (.weekOfMonth year month week) := by
  have places : ∀ m ∈ Writing.romans, (romanNumerals.idxOf? m.1).map (· + 1) = some m.2 := by
    decide
  obtain ⟨i, found, rfl⟩ := Option.map_eq_some_iff.mp (places _ hw)
  have roman : romanOf fields = i + 1 := by rw [romanOf, found]
  rw [build, yearOf_of_value hy h.1, monthOf_of_value hm h.2.1, roman]
  rfl

theorem build_nthWeekday {year : Option Int} {month : Option Nat} {nth : Int} {weekday : Weekday}
    (hy : value fields .year = year) (hm : value fields .month = month.map Nat.cast)
    (hn : value fields .nth = some nth)
    (hw : Weekday.read (letters fields .weekday) = .ok weekday)
    (h : Period.Documented (.nthWeekday year month nth weekday)) :
    build .nthWeekday fields = .ok (.nthWeekday year month nth weekday) := by
  obtain ⟨knownYear, knownMonth, range⟩ := h
  have ordinal : nthOf fields = .ok nth := by rw [nthOf, number_of_value hn, if_pos range]
  rw [build, yearOf_of_value hy knownYear, monthOf_of_value hm knownMonth, ordinal, hw]
  rfl

theorem build_easter {year : Option Int} {offset : Int} (hy : value fields .year = year)
    (ho : (value fields .offset).getD 0 = offset) (h : Period.Documented (.easter year offset)) :
    build .easter fields = .ok (.easter year offset) := by
  obtain ⟨known, range⟩ := h
  have away : number fields .offset = offset := ho
  rw [build, yearOf_of_value hy known, away]
  exact checkRange_bind_eq_ok.mpr ⟨range, rfl⟩

theorem build_tomorrow (hc : lower (letters fields .chunk) = morrow) :
    build .relative fields = .ok (.relative .day 1) := by
  rw [build, hc]
  rfl

theorem build_relative {chunk : Chunk} {offset : Int}
    (hr : (lower (letters fields .relation), offset) ∈ Writing.relations)
    (hc : Writing.NamesChunk chunk (lower (letters fields .chunk))) :
    build .relative fields = .ok (.relative chunk offset) := by
  have offsets : ∀ m ∈ Writing.relations, (if m.1 = "this".toList ∨ m.1 = "to".toList then 0
      else if m.1 = "next".toList then 1 else -1) = m.2 := by
    decide
  have moved : offsetOf fields = offset := offsets _ hr
  have read : lower (letters fields .chunk) ≠ morrow ∧
      Chunk.read (lower (letters fields .chunk)) = .ok chunk := by
    rcases hc with name | ⟨rfl, name⟩
    next =>
      rw [name]
      cases chunk <;> exact ⟨by decide, rfl⟩
    next =>
      rw [name]
      exact ⟨by decide, rfl⟩
  rw [build, if_neg read.1, read.2, moved]
  rfl

end Form

end Almanac
