import Almanac.Period.Resolve

set_option autoImplicit false

/-!
# What a resolution reads

A period is resolved by the numbers that it is named by. Of the current date it reads the year or
the month that its name leaves out, and of the settings the start of the week where it is cut at
weeks and the reform year where it is counted from Easter. Only a relative period reads the whole
date.
-/

namespace Almanac

variable {today today' : Date} {settings settings' : Settings}

inductive Circumstance
  | year | month | date | weekStart | reformYear
  deriving DecidableEq, Repr

namespace Circumstance

def Same (part : Circumstance) (today today' : Date) (settings settings' : Settings) : Prop :=
  match part with
  | .year => today.year = today'.year
  | .month => today.month = today'.month
  | .date => today = today'
  | .weekStart => settings.weekStart = settings'.weekStart
  | .reformYear => settings.reformYear = settings'.reformYear

instance (part : Circumstance) : Decidable (part.Same today today' settings settings') := by
  cases part <;> unfold Same <;> infer_instance

def inPlaceOf {α : Type} (part : Circumstance) : Option α → List Circumstance
  | some _ => []
  | none => [part]

theorem getD_year {y : Option Int}
    (same : ∀ part ∈ inPlaceOf .year y, part.Same today today' settings settings') :
    y.getD today.year = y.getD today'.year := by
  cases y with
  | none => exact same .year List.mem_cons_self
  | some y => rfl

theorem getD_month {m : Option Nat}
    (same : ∀ part ∈ inPlaceOf .month m, part.Same today today' settings settings') :
    m.getD today.month = m.getD today'.month := by
  cases m with
  | none => exact same .month List.mem_cons_self
  | some m => rfl

end Circumstance

namespace Date

variable (d : Date) (same : settings.weekStart = settings'.weekStart)

include same

theorem startOfWeek_congr : d.startOfWeek settings = d.startOfWeek settings' := by
  rw [startOfWeek, same, startOfWeek]

theorem endOfWeek_congr : d.endOfWeek settings = d.endOfWeek settings' := by
  rw [endOfWeek, d.startOfWeek_congr same, endOfWeek]

theorem firstWeekStart_congr (year : Int) :
    firstWeekStart year settings = firstWeekStart year settings' := by
  rw [firstWeekStart, same, firstWeekStart]

theorem weekNumber_congr : d.weekNumber settings = d.weekNumber settings' := by
  have origin : d.weekOrigin settings = d.weekOrigin settings' := by
    simp only [weekOrigin, firstWeekStart_congr same]
  rw [weekNumber, origin, weekNumber]

end Date

namespace Chunk

def reads : Chunk → List Circumstance
  | .biweek | .week => [.weekStart]
  | _ => []

theorem beginningOf_congr (chunk : Chunk) (d : Date)
    (same : ∀ part ∈ chunk.reads, part.Same today today' settings settings') :
    chunk.beginningOf d settings = chunk.beginningOf d settings' := by
  cases chunk with
  | biweek =>
    have start : settings.weekStart = settings'.weekStart := same .weekStart List.mem_cons_self
    simp only [beginningOf, d.startOfWeek_congr start, d.weekNumber_congr start]
  | week => exact d.startOfWeek_congr (same .weekStart List.mem_cons_self)
  | _ => rfl

theorem endOf_congr (chunk : Chunk) (d : Date)
    (same : ∀ part ∈ chunk.reads, part.Same today today' settings settings') :
    chunk.endOf d settings = chunk.endOf d settings' := by
  cases chunk with
  | biweek =>
    have start : settings.weekStart = settings'.weekStart := same .weekStart List.mem_cons_self
    simp only [endOf, Date.endOfWeek_congr _ start, Date.weekNumber_congr _ start]
  | week => exact d.endOfWeek_congr (same .weekStart List.mem_cons_self)
  | _ => rfl

end Chunk

namespace Period

open Circumstance (inPlaceOf getD_year getD_month)

def reads : Period → List Circumstance
  | .dayOfYear y _ | .month y _ _ | .isoWeek y _ _ | .quarter y _ | .half y _ => inPlaceOf .year y
  | .year _ | .forever | .never => []
  | .halfMonth y m _ | .nthWeekday y m _ _ => inPlaceOf .year y ++ inPlaceOf .month m
  | .weekOfMonth y m _ => inPlaceOf .year y ++ inPlaceOf .month m ++ [.weekStart]
  | .easter y _ => inPlaceOf .year y ++ [.reformYear]
  | .relative chunk _ => .date :: chunk.reads

theorem weekOfMonthEdge_congr (same : settings.weekStart = settings'.weekStart) (year : Int)
    (month week : Nat) (edge : Edge) :
    weekOfMonthEdge year month week settings edge =
      weekOfMonthEdge year month week settings' edge := by
  simp only [weekOfMonthEdge, Date.startOfWeek_congr _ same, Date.endOfWeek_congr _ same]

theorem resolve_congr (period : Period) (edge : Edge)
    (same : ∀ part ∈ period.reads, part.Same today today' settings settings') :
    period.resolve edge today settings = period.resolve edge today' settings' := by
  cases period with
  | dayOfYear y day => rw [resolve, getD_year same, resolve]
  | month y m day => cases day <;> rw [resolve, getD_year same, resolve]
  | isoWeek y week day => rw [resolve, getD_year same, resolve]
  | quarter y n | half y n =>
    rw [resolve, getD_year same, resolve]
    rfl
  | year y => rfl
  | halfMonth y m half =>
    obtain ⟨years, months⟩ := List.forall_mem_append.mp same
    rw [resolve, getD_year years, getD_month months, resolve]
  | weekOfMonth y m week =>
    obtain ⟨numbers, others⟩ := List.forall_mem_append.mp same
    obtain ⟨years, months⟩ := List.forall_mem_append.mp numbers
    have start : settings.weekStart = settings'.weekStart := others .weekStart List.mem_cons_self
    rw [resolve, getD_year years, getD_month months, weekOfMonthEdge_congr start, resolve]
  | nthWeekday y m nth weekday =>
    obtain ⟨years, months⟩ := List.forall_mem_append.mp same
    rw [resolve, getD_year years, getD_month months, resolve]
  | easter y offset =>
    obtain ⟨years, others⟩ := List.forall_mem_append.mp same
    have reform : settings.reformYear = settings'.reformYear :=
      others .reformYear List.mem_cons_self
    rw [resolve, getD_year years, reform, resolve]
  | relative chunk offset =>
    obtain ⟨date, weeks⟩ := List.forall_mem_cons.mp same
    cases date
    rw [resolve, chunkEdge, chunk.beginningOf_congr _ weeks, chunk.endOf_congr _ weeks, resolve,
      chunkEdge]
  | forever => rfl
  | never => rfl

end Period

namespace Spec

/-- In two situations that have in common what the period of a spec reads, the spec has the same
result: the same date, no date, or the same error. -/
theorem resolve_reads_only (spec : Spec) (edge : Edge)
    (same : ∀ part ∈ spec.period.reads, part.Same today today' settings settings') :
    spec.resolve edge today settings = spec.resolve edge today' settings' := by
  rw [resolve, spec.period.resolve_congr edge same, resolve]

-- A week of February reads neither the year, which is given, nor the reform year.
theorem resolve_reads_only_february :
    (∀ part ∈ Period.reads (.weekOfMonth (some 2024) none 5),
      part.Same (Date.on 1999 2 1) (Date.on 2024 2 29) { reformYear := 1752 } {}) ∧
    resolve ⟨.weekOfMonth (some 2024) none 5, some ⟨.before, false, .sunday⟩⟩ .last
      (Date.on 1999 2 1) { reformYear := 1752 } = .ok (some (Date.on 2024 2 25)) := by
  have same : ∀ part ∈ Period.reads (.weekOfMonth (some 2024) none 5),
      part.Same (Date.on 1999 2 1) (Date.on 2024 2 29) { reformYear := 1752 } {} := by
    decide
  have ends : Period.resolve (.weekOfMonth (some 2024) none 5) .last (Date.on 2024 2 29) {} =
      .ok (some (Date.on 2024 2 29)) := by
    rfl
  have onSunday : Skip.apply ⟨.before, false, .sunday⟩ (Date.on 2024 2 29) = Date.on 2024 2 25 := by
    decide
  refine ⟨same, ?_⟩
  rw [resolve_reads_only _ .last same, resolve, ends]
  exact congrArg (Except.ok ∘ some) onSunday

end Spec

end Almanac
