import Almanac.Proofs.Date.IsoCalendar
import Almanac.Proofs.Period.Skip

set_option autoImplicit false

/-!
# Both edges of a period

A period has a last day when it has a first one, and otherwise fails at both edges for one reason.
The only exception is the last week of the year 9999: its Monday is December 27, and its Sunday,
the second day of the next year, is beyond the checked dates.
-/

namespace Almanac

namespace Date

variable {year : Int} {week : Nat}

theorem ofSerial_alike {m n : Int}
    (same : earliest.serial ≤ m ∧ m ≤ latest.serial ↔
      earliest.serial ≤ n ∧ n ≤ latest.serial) : Alike (ofSerial m) (ofSerial n) := by
  unfold ofSerial
  by_cases inside : earliest.serial ≤ m ∧ m ≤ latest.serial
  next =>
    rw [if_pos inside, if_pos (same.mp inside)]
    exact .ok _ _
  next =>
    rw [if_neg inside, if_neg (inside ∘ same.mpr)]
    exact .error rfl

-- The first week of the year 10000 begins on January 3.
theorem eq_last_week (inYear : 1 ≤ week ∧ week ≤ isoWeeks year)
    (last : isoYearBegin year + 7 * week - 7 = latest.serial - 4) : year = 9999 ∧ week = 52 := by
  have begins : isoYearBegin 9999 = 2932535 := by rfl
  have next : isoYearBegin 10000 = 2932899 := by rfl
  have ends := isoYearBegin_succ year
  rw [latest_serial] at last
  have notBefore : ¬year + 1 ≤ 9999 := by
    intro before
    have earlier := isoYearBegin_mono before
    omega
  have notAfter : ¬10000 ≤ year := by
    intro after
    have later := isoYearBegin_mono after
    omega
  obtain rfl : year = 9999 := by omega
  omega

-- The first day of the year 1 is a Monday, so that only the last week of the year 9999 lies partly
-- beyond the checked dates.
theorem ofIsoWeek_alike (inside : ¬(year = 9999 ∧ week = 52)) :
    Alike (ofIsoWeek year week 1) (ofIsoWeek year week 7) := by
  unfold ofIsoWeek
  refine alike_bind _ fun _ inYear => ?_
  rw [checkRange_eq_ok] at inYear
  change Alike (ite _ _ _) (ite _ _ _)
  split
  next => exact .error rfl
  next weekExists =>
    have start := isoYearStart_serial year
    have monday := isoYearBegin_monday year
    have weeks := isoWeeks_bounds year
    have notLast : isoYearBegin year + 7 * week - 7 ≠ latest.serial - 4 :=
      fun last => inside (eq_last_week ⟨by omega, by omega⟩ last)
    simp only [floor_serial, ceiling_serial, latest_serial] at start notLast
    apply ofSerial_alike
    simp only [earliest_serial, latest_serial]
    omega

end Date

namespace Period

def EndsBeyond (today : Date) : Period → Prop
  | .isoWeek y week none => y.getD today.year = 9999 ∧ week = 52
  | _ => False

instance (today : Date) (period : Period) : Decidable (period.EndsBeyond today) := by
  unfold EndsBeyond
  split <;> infer_instance

theorem weekOfMonthEdge_alike (year : Int) (month week : Nat) (settings : Settings) :
    Alike (weekOfMonthEdge year month week settings .first)
      (weekOfMonthEdge year month week settings .last) := by
  unfold weekOfMonthEdge
  refine alike_bind _ fun first _ => ?_
  dsimp only
  split
  next => exact .error rfl
  next => exact .ok _ _

theorem resolve_alike {period : Period} {today : Date} (inside : ¬period.EndsBeyond today)
    (settings : Settings) :
    Alike (period.resolve .first today settings) (period.resolve .last today settings) := by
  cases period with
  | dayOfYear y day => exact alike_bind _ fun _ _ => .ok _ _
  | month y m day =>
    cases day with
    | none => exact alike_bind _ fun _ _ => .ok _ _
    | some day => exact alike_bind _ fun _ _ => .ok _ _
  | isoWeek y week day =>
    cases day with
    | none => exact (Date.ofIsoWeek_alike inside).map some
    | some day => exact alike_bind _ fun _ _ => .ok _ _
  | quarter y n => exact alike_bind _ fun _ _ => .ok _ _
  | half y n => exact alike_bind _ fun _ _ => .ok _ _
  | year y => exact alike_bind _ fun _ _ => .ok _ _
  | halfMonth y m half => exact alike_bind _ fun _ _ => .ok _ _
  | weekOfMonth y m week => exact (weekOfMonthEdge_alike _ _ week settings).map some
  | nthWeekday y m nth weekday => exact alike_bind _ fun _ _ => .ok _ _
  | easter y offset =>
    exact alike_bind _ fun _ _ => alike_bind _ fun _ _ => .ok _ _
  | relative chunk offset => exact .ok _ _
  | forever => exact .ok _ _
  | never => exact .ok _ _

theorem resolve_beyond {period : Period} {today : Date} (beyond : period.EndsBeyond today)
    (settings : Settings) :
    period.resolve .first today settings = .ok (some (Date.on 9999 12 27)) ∧
      period.resolve .last today settings = .error (.invalidDate (.serial 2932898)) := by
  unfold EndsBeyond at beyond
  split at beyond
  next y week =>
    obtain ⟨inYear, rfl⟩ := beyond
    rw [resolve, resolve, inYear]
    exact ⟨by rfl, by rfl⟩
  next => cases beyond

end Period

namespace Spec

variable {text : List Char} {spec : Spec} {today : Date}

def moved (spec : Spec) (day : Option Date) : Option Date :=
  match spec.skip with
  | some skip => day.map skip.apply
  | none => day

theorem resolve_eq_map (spec : Spec) (edge : Edge) (today : Date) (settings : Settings) :
    spec.resolve edge today settings =
      (spec.period.resolve edge today settings).map spec.moved := by
  unfold resolve moved
  cases spec.period.resolve edge today settings <;> rfl

theorem resolveText_alike
    (inside : ∀ spec, Spec.read text = .ok spec → ¬spec.period.EndsBeyond today)
    (settings : Settings) :
    Alike (resolveText text .first today settings) (resolveText text .last today settings) := by
  rw [resolveText_eq, resolveText_eq]
  refine alike_bind _ fun spec read => ?_
  rw [resolve_eq_map, resolve_eq_map]
  exact (Period.resolve_alike (inside spec read) settings).map spec.moved

theorem resolveText_beyond (read : Spec.read text = .ok spec)
    (beyond : spec.period.EndsBeyond today) (settings : Settings) :
    (∃ d, resolveText text .first today settings = .ok (some d)) ∧
      resolveText text .last today settings = .error (.invalidDate (.serial 2932898)) := by
  obtain ⟨first, last⟩ := Period.resolve_beyond beyond settings
  have whole (edge : Edge) : resolveText text edge today settings =
      (spec.period.resolve edge today settings).map spec.moved := by
    rw [resolveText_eq, read, ← resolve_eq_map]
    rfl
  rw [whole, whole, first, last]
  refine ⟨?_, rfl⟩
  unfold moved
  cases spec.skip with
  | some skip => exact ⟨_, rfl⟩
  | none => exact ⟨_, rfl⟩

/-- A text resolves at one edge exactly when it resolves at the other, and fails at both for reasons
of one kind, unless it is read as the last week of the year 9999: that begins and does not end. -/
theorem resolveText_edges_iff (text : List Char) (today : Date) (settings : Settings) :
    let first := resolveText text .first today settings
    let last := resolveText text .last today settings
    (((∃ day, first = .ok day) ↔ ∃ day, last = .ok day) ↔
        ∀ spec, Spec.read text = .ok spec → ¬spec.period.EndsBeyond today) ∧
      (∀ e e', first = .error e → last = .error e' → e.kind = e'.kind) ∧
      ∀ spec, Spec.read text = .ok spec → spec.period.EndsBeyond today →
        (∃ d, first = .ok (some d)) ∧ last = .error (.invalidDate (.serial 2932898)) := by
  intro first last
  have beyond (spec : Spec) (read : Spec.read text = .ok spec)
      (beyond : spec.period.EndsBeyond today) :=
    resolveText_beyond read beyond settings
  by_cases inside : ∀ spec, Spec.read text = .ok spec → ¬spec.period.EndsBeyond today
  next =>
    obtain ⟨together, kinds⟩ := alike_iff.mp (resolveText_alike inside settings)
    exact ⟨iff_of_true together inside, kinds, beyond⟩
  next =>
    obtain ⟨spec, unlike⟩ := not_forall.mp inside
    obtain ⟨read, ends⟩ := Classical.not_imp.mp unlike
    obtain ⟨⟨d, begins⟩, fails⟩ := beyond spec read (not_not.mp ends)
    refine ⟨iff_of_false ?_ inside, ?_, beyond⟩
    next =>
      intro together
      obtain ⟨day, resolved⟩ := together.mp ⟨_, begins⟩
      cases fails.symm.trans resolved
    next =>
      intro e e' failed
      cases begins.symm.trans failed

theorem resolveText_edges_iff_missing_week :
    resolveText "2023-W53 <Fr".toList .first (Date.on 2024 1 1) {} =
        .error (.invalidDate (.week 2023 53)) ∧
      ∃ e, resolveText "2023-W53 <Fr".toList .last (Date.on 2024 1 1) {} = .error e ∧
        e.kind = .invalidDate := by
  have read : Spec.read "2023-W53 <Fr".toList =
      .ok ⟨.isoWeek (some 2023) 53 none, some ⟨.before, false, .friday⟩⟩ := by
    rfl
  have fails : resolveText "2023-W53 <Fr".toList .first (Date.on 2024 1 1) {} =
      .error (.invalidDate (.week 2023 53)) := by
    rw [resolveText_eq, read]
    rfl
  obtain ⟨together, kinds, -⟩ :=
    resolveText_edges_iff "2023-W53 <Fr".toList (Date.on 2024 1 1) {}
  have inside : ∀ spec, Spec.read "2023-W53 <Fr".toList = .ok spec →
      ¬spec.period.EndsBeyond (Date.on 2024 1 1) := by
    intro spec same
    cases read.symm.trans same
    decide
  refine ⟨fails, ?_⟩
  cases last : resolveText "2023-W53 <Fr".toList .last (Date.on 2024 1 1) {} with
  | ok day =>
    obtain ⟨other, first⟩ := (together.mpr inside).mpr ⟨day, last⟩
    cases fails.symm.trans first
  | error e => exact ⟨e, rfl, (kinds _ e fails last).symm⟩

theorem resolveText_last_week :
    resolveText "9999-W52".toList .first (Date.on 2024 1 1) {} = .ok (some (Date.on 9999 12 27)) ∧
      resolveText "9999-W52".toList .last (Date.on 2024 1 1) {} =
        .error (.invalidDate (.serial 2932898)) := by
  have read : Spec.read "9999-W52".toList = .ok ⟨.isoWeek (some 9999) 52 none, none⟩ := by
    rfl
  have edges := @Period.resolve_beyond (.isoWeek (some 9999) 52 none) (Date.on 2024 1 1)
    ⟨rfl, rfl⟩ {}
  rw [resolveText_eq, resolveText_eq, read]
  exact edges

end Spec

end Almanac
