import Almanac.Proofs.Chunk.Numbering
import Almanac.Proofs.Date.IsoCalendar
import Almanac.Proofs.Period.Faithful
import Almanac.Proofs.Period.Indices

set_option autoImplicit false

/-!
# The order of the ends of a period

The first day of a period does not lie after its last, with a skip or without one, and a period has
either both ends or none.
-/

namespace Almanac

namespace Skip

def target (skip : Skip) (n : Int) : Int :=
  match skip.direction, skip.inclusive with
  | .before, true => n - (n + 4 - skip.weekday.sundayIndex) % 7
  | .before, false => n - 1 - (n + 3 - skip.weekday.sundayIndex) % 7
  | .after, true => n + (skip.weekday.sundayIndex - (n + 4)) % 7
  | .after, false => n + 1 + (skip.weekday.sundayIndex - (n + 5)) % 7

theorem apply_eq (skip : Skip) (d : Date) :
    skip.apply d = Date.saturate (skip.target d.serial) := by
  obtain ⟨direction, inclusive, weekday⟩ := skip
  have back := weekday.daysUntil_eq d.weekday
  have ahead := d.weekday.daysUntil_eq weekday
  rw [Date.sundayIndex_weekday] at back ahead
  cases direction with
  | before =>
    apply congrArg Date.saturate
    cases inclusive with
    | true =>
      simp only [target, not_true, and_false, if_false]
      omega
    | false =>
      simp only [target, Bool.false_eq_true, not_false_eq_true, and_true]
      split <;> omega
  | after =>
    apply congrArg Date.saturate
    cases inclusive with
    | true =>
      simp only [target, not_true, and_false, if_false]
      omega
    | false =>
      simp only [target, Bool.false_eq_true, not_false_eq_true, and_true]
      split <;> omega

theorem target_mono (skip : Skip) {m n : Int} (h : m ≤ n) : skip.target m ≤ skip.target n := by
  unfold target
  split <;> omega

theorem apply_mono (skip : Skip) {a b : Date} (h : a ≤ b) : skip.apply a ≤ skip.apply b := by
  rw [apply_eq, apply_eq]
  exact Date.saturate_mono (skip.target_mono h)

end Skip

namespace Chunk

variable {settings : Settings} {d : Date}

theorem beginningOf_le_endOf (chunk : Chunk) (settings : Settings) (room : d.HasRoom 1300) :
    chunk.beginningOf d settings ≤ chunk.endOf d settings := by
  have span := isSpan chunk settings room
  exact Int.le_trans span.first_le span.le_last

theorem advance_inland (chunk : Chunk) {n : Int} (inRange : d.InRange)
    (few : -400000 ≤ n ∧ n ≤ 400000) : (chunk.advance d n).Inland := by
  by_cases other : chunk = .biweek
  next =>
    subst other
    have bounds := inRange.serial_bounds
    have move := biweek_advance_serial inRange few
    exact Date.inland_of_serial (by omega)
  next =>
    obtain ⟨number, numbers⟩ := exists_numbers {} other
    exact (numbers.advance inRange few).1

end Chunk

namespace Period

structure Ordered (edges : Edge → Except Error (Option Date)) : Prop where
  le : ∀ {first last : Date}, edges .first = .ok (some first) → edges .last = .ok (some last) →
    first ≤ last
  none_iff : edges .first = .ok none ↔ edges .last = .ok none

theorem map_eq_some {x : Except Error (Option Date)} {move : Date → Date} {e : Date} :
    (do return (← x).map move) = Except.ok (some e) ↔ ∃ d, x = .ok (some d) ∧ move d = e := by
  rcases x with _ | _ | d <;> simp [bind, Except.bind, pure, Except.pure]

theorem map_eq_none {x : Except Error (Option Date)} {move : Date → Date} :
    (do return (← x).map move) = Except.ok none ↔ x = .ok none := by
  rcases x with _ | _ | d <;> simp [bind, Except.bind, pure, Except.pure]

theorem Ordered.map {edges : Edge → Except Error (Option Date)} (ordered : Ordered edges)
    {move : Date → Date} (mono : ∀ {a b : Date}, a ≤ b → move a ≤ move b) :
    Ordered fun edge => do return (← edges edge).map move := by
  constructor
  next =>
    intro first last isFirst isLast
    obtain ⟨a, found, rfl⟩ := map_eq_some.mp isFirst
    obtain ⟨b, foundLast, rfl⟩ := map_eq_some.mp isLast
    exact mono (ordered.le found foundLast)
  next => rw [map_eq_none, map_eq_none, ordered.none_iff]

theorem ordered_of_edges {x : Edge → Except Error Date}
    (le : ∀ {first last : Date}, x .first = .ok first → x .last = .ok last → first ≤ last) :
    Ordered fun edge => do return some (← x edge) := by
  have notNone (edge : Edge) : (do return some (← x edge)) ≠ Except.ok none := by
    intro h
    obtain ⟨e, -, same⟩ := bind_eq_ok_iff.mp h
    cases same
  constructor
  next => exact fun isFirst isLast => le (some_eq_ok_iff.mp isFirst) (some_eq_ok_iff.mp isLast)
  next => exact iff_of_false (notNone .first) (notNone .last)

theorem ordered_day (x : Except Error Date) : Ordered fun _ => do return some (← x) := by
  apply @ordered_of_edges fun _ => x
  intro first last isFirst isLast
  rw [isFirst] at isLast
  cases isLast
  exact Int.le_refl _

theorem ordered_of_ends {x : Except Error Date} {ends : Date → Edge → Date}
    (le : ∀ {s : Date}, x = .ok s → ends s .first ≤ ends s .last) :
    Ordered fun edge => do return some (ends (← x) edge) := by
  cases x with
  | error e => exact @ordered_of_edges (fun _ => .error e) (fun isFirst => by cases isFirst)
  | ok s =>
    refine @ordered_of_edges (fun edge => .ok (ends s edge)) fun isFirst isLast => ?_
    cases isFirst
    cases isLast
    exact le rfl

theorem ordered_chunk (chunk : Chunk) (settings : Settings) (year : Int) (month : Nat) :
    Ordered fun edge => do
      return some (chunkEdge chunk (← Date.ofYearMonthDay year month 1) settings edge) := by
  apply @ordered_of_ends _ (chunkEdge chunk · settings)
  intro inside found
  obtain ⟨known, valid, rfl⟩ := Date.of_ofYearMonthDay found
  have inRange : (Date.on year month 1).InRange := by
    rwa [Date.inRange_iff, Date.year_on valid]
  exact chunk.beginningOf_le_endOf settings (inRange.hasRoom (by decide))

section

variable {year : Int} {month : Nat}

theorem ordered_month : Ordered fun edge => do
    let start ← Date.ofYearMonthDay year month 1
    return some (edge.pick start start.endOfMonth) := by
  apply @ordered_of_ends _ fun s edge => edge.pick s s.endOfMonth
  intro start found
  obtain ⟨-, valid, rfl⟩ := Date.of_ofYearMonthDay found
  have length := Civil.monthLength_bounds year month
  have last := @Date.monthEnd_serial year month ⟨valid.1, valid.2.1⟩
  simp only [Edge.pick, Date.le_def]
  omega

theorem ordered_halfMonth (half : MonthHalf) : Ordered fun edge => do
    return some (halfMonthEdge (← Date.ofYearMonthDay year month 1) half edge) := by
  apply @ordered_of_ends _ (halfMonthEdge · half)
  intro start found
  obtain ⟨known, valid, rfl⟩ := Date.of_ofYearMonthDay found
  have months : 1 ≤ month ∧ month ≤ 12 := ⟨valid.1, valid.2.1⟩
  have length := Civil.monthLength_bounds year month
  have last := @Date.monthEnd_serial year month months
  have room : (Date.on year month 1).HasRoom 15 :=
    (Date.monthStart_hasRoom known months).mono (by decide)
  have fifteenth := room.plus_serial (show -15 ≤ (14 : Int) ∧ (14 : Int) ≤ 15 by decide)
  have sixteenth := room.plus_serial (show -15 ≤ (15 : Int) ∧ (15 : Int) ≤ 15 by decide)
  cases half with
  | a =>
    simp only [halfMonthEdge, Edge.pick, Date.le_def]
    omega
  | b =>
    simp only [halfMonthEdge, Edge.pick, Date.le_def]
    omega

theorem ordered_weekOfMonth {week : Nat} (positive : 1 ≤ week) (settings : Settings) :
    Ordered fun edge => do return some (← weekOfMonthEdge year month week settings edge) := by
  apply ordered_of_edges
  intro first last isFirst isLast
  obtain ⟨start, found, isFirst⟩ := bind_eq_ok_iff.mp isFirst
  obtain ⟨start', found', isLast⟩ := bind_eq_ok_iff.mp isLast
  rw [found] at found'
  cases found'
  obtain ⟨known, valid, rfl⟩ := Date.of_ofYearMonthDay found
  have room : (Date.on year month 1).HasRoom 12 :=
    (Date.monthStart_hasRoom known ⟨valid.1, valid.2.1⟩).mono (by decide)
  have length := Civil.monthLength_bounds year month
  have monthEnd := @Date.monthEnd_serial year month ⟨valid.1, valid.2.1⟩
  have weekStart := @Date.startOfWeek_serial _ settings (room.mono (by decide))
  have weekEnd := @Date.endOfWeek_serial _ settings room
  have place := (Date.on year month 1).daysIntoWeek_bounds settings
  unfold Date.HasRoom at room
  dsimp only at isFirst isLast
  split at isFirst
  next => cases isFirst
  next inMonth =>
    rw [if_neg inMonth] at isLast
    cases isFirst
    cases isLast
    -- A week of the month from the first on ends on the first or after it.
    simp only [Edge.pick, Date.lt_def, Date.le_def, Date.max_serial, Date.min_serial, Date.plus,
      Date.saturate] at inMonth ⊢
    omega

end

theorem ordered_isoWeek (year : Int) (week : Nat) (day : Option Nat) :
    Ordered fun edge => do return some (← Date.ofIsoWeek year week (day.getD (edge.pick 1 7))) := by
  apply ordered_of_edges
  intro first last isFirst isLast
  obtain ⟨-, -, -, rfl⟩ := Date.ofIsoWeek_eq_ok_iff_isoDay.mp isFirst
  obtain ⟨-, -, -, rfl⟩ := Date.ofIsoWeek_eq_ok_iff_isoDay.mp isLast
  rw [Date.le_def, Date.isoDay_serial, Date.isoDay_serial]
  cases day with
  | none => simp only [Option.getD_none, Edge.pick]; omega
  | some day => exact Int.le_refl _

/-- The numbers that a text cannot put out of bounds: a week of a month is counted from one, and a
relative period is a neighbour of the current one at most. -/
def Settled : Period → Prop
  | .weekOfMonth _ _ week => 1 ≤ week
  | .relative _ offset => -1 ≤ offset ∧ offset ≤ 1
  | _ => True

theorem settled_of_documented {period : Period} (documented : period.Documented) :
    period.Settled := by
  cases period with
  | weekOfMonth y m week => exact documented.2.2.1
  | relative chunk offset =>
    have near : offset = -1 ∨ offset = 0 ∨ offset = 1 := documented
    unfold Settled
    omega
  | _ => trivial

theorem settled_of_build {form : Form} {fields : Text.Fields Field} {period : Period}
    (built : form.build fields = .ok period) : period.Settled := by
  cases form with
  | dayOfYear | month | quarter | half | easter =>
    obtain ⟨-, built⟩ := checkRange_bind_eq_ok.mp built
    cases built
    trivial
  | isoWeek =>
    obtain ⟨-, built⟩ := checkRange_bind_eq_ok.mp built
    obtain ⟨day, -, built⟩ := bind_eq_ok_iff.mp built
    cases built
    trivial
  | year | forever | never =>
    cases built
    trivial
  | halfMonth =>
    obtain ⟨month, -, built⟩ := bind_eq_ok_iff.mp built
    cases built
    trivial
  | weekOfMonth =>
    obtain ⟨month, -, built⟩ := bind_eq_ok_iff.mp built
    cases built
    exact (romanOf_bounds fields).1
  | nthWeekday =>
    obtain ⟨month, -, built⟩ := bind_eq_ok_iff.mp built
    obtain ⟨nth, -, built⟩ := bind_eq_ok_iff.mp built
    obtain ⟨weekday, -, built⟩ := bind_eq_ok_iff.mp built
    cases built
    trivial
  | relative => exact settled_of_documented (documented_relative built).2

theorem resolve_ordered {period : Period} (settled : period.Settled) {today : Date}
    (inRange : today.InRange) (settings : Settings) :
    Ordered (period.resolve · today settings) := by
  cases period with
  | dayOfYear y day => exact ordered_day _
  | month y m day =>
    cases day with
    | none => exact ordered_month
    | some day => exact ordered_day _
  | isoWeek y week day => exact ordered_isoWeek _ week day
  | quarter y n => exact ordered_chunk .quarter settings _ _
  | half y n => exact ordered_chunk .half settings _ _
  | year y => exact ordered_chunk .year settings _ _
  | halfMonth y m half => exact ordered_halfMonth half
  | weekOfMonth y m week => exact ordered_weekOfMonth settled settings
  | nthWeekday y m nth weekday => exact ordered_day _
  | easter y offset =>
    have whole := ordered_day do
      let sunday ← Date.easter (y.getD today.year) settings.reformYear
      sunday.addDays offset
    simp only [bind_assoc] at whole
    exact whole
  | relative chunk offset =>
    have near : -1 ≤ offset ∧ offset ≤ 1 := settled
    have room := (chunk.advance_inland inRange (n := offset) (by omega)).hasRoom
    refine @ordered_of_edges (fun edge => .ok (chunkEdge chunk _ settings edge)) ?_
    intro first last isFirst isLast
    cases isFirst
    cases isLast
    exact chunk.beginningOf_le_endOf settings (room.mono (by decide))
  | forever =>
    refine @ordered_of_edges (fun edge => .ok (edge.pick _ _)) fun isFirst isLast => ?_
    cases isFirst
    cases isLast
    decide
  | never => exact ⟨fun isFirst => (nomatch isFirst), Iff.rfl⟩

end Period

namespace Spec

theorem settled_of_read {text : List Char} {spec : Spec} (read : Spec.read text = .ok spec) :
    spec.period.Settled := by
  obtain ⟨_, _, _, readAs⟩ := exists_readAs read
  exact Period.settled_of_build readAs.built

theorem resolve_ordered {spec : Spec} (settled : spec.period.Settled) {today : Date}
    (inRange : today.InRange) (settings : Settings) :
    Period.Ordered (spec.resolve · today settings) := by
  have ordered := Period.resolve_ordered settled inRange settings
  obtain ⟨period, skip⟩ := spec
  cases skip with
  | none =>
    have same : (Spec.resolve ⟨period, none⟩ · today settings) =
        (period.resolve · today settings) :=
      funext fun edge => resolve_unskipped rfl edge today settings
    rwa [same]
  | some skip => exact ordered.map skip.apply_mono

theorem resolveText_of_read {text : List Char} {spec : Spec} (read : Spec.read text = .ok spec)
    (edge : Edge) (today : Date) (settings : Settings) :
    resolveText text edge today settings = spec.resolve edge today settings := by
  rw [resolveText, read]
  rfl

/-- The first day that a text stands for does not lie after the last, and it stands for no first
day exactly when it stands for no last one. -/
theorem resolveText_ordered (text : List Char) {today : Date} (inRange : today.InRange)
    (settings : Settings) :
    (∀ first last : Date, resolveText text .first today settings = .ok (some first) →
      resolveText text .last today settings = .ok (some last) → first ≤ last) ∧
    (resolveText text .first today settings = .ok none ↔
      resolveText text .last today settings = .ok none) := by
  cases read : Spec.read text with
  | error e =>
    unfold resolveText
    rw [read]
    constructor
    next =>
      intro first last isFirst
      cases isFirst
    next => exact Iff.rfl
  | ok spec =>
    have ordered := resolve_ordered (settled_of_read read) inRange settings
    simp only [resolveText_of_read read]
    exact ⟨fun _ _ => ordered.le, ordered.none_iff⟩

-- The fifth week of February 2024 is cut off on its Thursday, from where the skip leads to March.
theorem resolveText_ordered_cut_week :
    (Date.on 2024 2 29).InRange ∧
      resolveText "v >=Mo".toList .first (Date.on 2024 2 29) {} = .ok (some (Date.on 2024 2 26)) ∧
      resolveText "v >=Mo".toList .last (Date.on 2024 2 29) {} = .ok (some (Date.on 2024 3 4)) ∧
      Date.on 2024 2 26 ≤ Date.on 2024 3 4 := by
  have inRange : (Date.on 2024 2 29).InRange := by decide
  have read : Spec.read "v >=Mo".toList =
      .ok ⟨.weekOfMonth none none 5, some ⟨.after, true, .monday⟩⟩ := by
    rfl
  have starts : Period.resolve (.weekOfMonth none none 5) .first (Date.on 2024 2 29) {} =
      .ok (some (Date.on 2024 2 26)) := by
    have start : max (((Date.on 2024 2 1).startOfWeek {}).plus 28) (Date.on 2024 2 1) =
        Date.on 2024 2 26 := by
      decide
    exact congrArg (Except.ok ∘ some) start
  have ends : Period.resolve (.weekOfMonth none none 5) .last (Date.on 2024 2 29) {} =
      .ok (some (Date.on 2024 2 29)) := by
    rfl
  have onMonday : Skip.apply ⟨.after, true, .monday⟩ (Date.on 2024 2 26) = Date.on 2024 2 26 := by
    decide
  have onThursday : Skip.apply ⟨.after, true, .monday⟩ (Date.on 2024 2 29) = Date.on 2024 3 4 := by
    decide
  have first : resolveText "v >=Mo".toList .first (Date.on 2024 2 29) {} =
      .ok (some (Date.on 2024 2 26)) := by
    rw [resolveText_of_read read, resolve, starts]
    exact congrArg (Except.ok ∘ some) onMonday
  have last : resolveText "v >=Mo".toList .last (Date.on 2024 2 29) {} =
      .ok (some (Date.on 2024 3 4)) := by
    rw [resolveText_of_read read, resolve, ends]
    exact congrArg (Except.ok ∘ some) onThursday
  exact ⟨inRange, first, last, (resolveText_ordered _ inRange {}).1 _ _ first last⟩

end Spec

end Almanac
