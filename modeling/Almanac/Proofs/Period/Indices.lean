import Almanac.Period.Resolve
import Almanac.Proofs.Chunk.Span
import Almanac.Proofs.Date.IsoWeek
import Almanac.Proofs.Date.NthWeekday

set_option autoImplicit false

/-!
# Periods and the numbers of a day

A period that is named by numbers of the calendar holds the days that have these numbers, and it
has no first day when no day has them.
-/

namespace Almanac

def MonthHalf.Holds : MonthHalf → Nat → Prop
  | .a, day => day ≤ 15
  | .b, day => 16 ≤ day

namespace Period

def IsIndexed : Period → Prop
  | .dayOfYear .. | .month .. | .isoWeek .. | .quarter .. | .half .. | .year .. | .halfMonth ..
  | .nthWeekday .. => True
  | _ => False

/-- A day has the numbers that a period is named by; what the name leaves out is as today. -/
def HasIndices (period : Period) (today d : Date) : Prop :=
  match period with
  | .dayOfYear y day => d.year = y.getD today.year ∧ d.dayOfYear = day
  | .month y m day => d.year = y.getD today.year ∧ d.month = m ∧ day.all (d.day = ·)
  | .isoWeek y week day =>
      d.isoYear = y.getD today.year ∧ d.isoWeek = week ∧ day.all (d.weekday.ordinal = ·)
  | .quarter y n => d.year = y.getD today.year ∧ d.quarter = n
  | .half y n => d.year = y.getD today.year ∧ d.half = n
  | .year y => d.year = y
  | .halfMonth y m n =>
      d.year = y.getD today.year ∧ d.month = m.getD today.month ∧ n.Holds d.day
  | .nthWeekday y m nth weekday =>
      d.year = y.getD today.year ∧ d.isNthWeekday nth weekday (m.getD today.month)
  | _ => False

/-- The edges of a period enclose the days with a property; the first fails if there are none. -/
structure Encloses (edges : Edge → Except Error (Option Date)) (has : Date → Prop) : Prop where
  between : ∀ first last : Date, edges .first = .ok (some first) → edges .last = .ok (some last) →
    ∀ d : Date, d.InRange → (first ≤ d ∧ d ≤ last ↔ has d)
  absent : (∃ e, edges .first = .error e) ↔ ∀ d : Date, d.InRange → ¬has d

theorem Encloses.congr {edges : Edge → Except Error (Option Date)} {has has' : Date → Prop}
    (encloses : Encloses edges has) (same : ∀ d, has' d ↔ has d) : Encloses edges has' := by
  rwa [show has' = has from funext fun d => propext (same d)]

theorem some_eq_ok_iff {x : Except Error Date} {d : Date} :
    (do return some (← x)) = Except.ok (some d) ↔ x = .ok d := by
  cases x with
  | error e => simp [bind, Except.bind]
  | ok s => simp [bind, Except.bind, pure, Except.pure]

theorem encloses_of_edges {x : Edge → Except Error Date} {has : Date → Prop}
    (holds : ∀ first last, x .first = .ok first → x .last = .ok last → ∀ d : Date, d.InRange →
      (first ≤ d ∧ d ≤ last ↔ has d))
    (found : (∃ s, x .first = .ok s) ↔ ∃ d : Date, d.InRange ∧ has d) :
    Encloses (fun edge => do return some (← x edge)) has := by
  constructor
  next =>
    intro first last isFirst isLast
    exact holds first last (some_eq_ok_iff.mp isFirst) (some_eq_ok_iff.mp isLast)
  next =>
    have failed : (∃ e, (do return some (← x .first)) = Except.error e) ↔
        ¬∃ s, x .first = .ok s := by
      cases x .first with
      | error e => simp [bind, Except.bind]
      | ok s => simp [bind, Except.bind, pure, Except.pure]
    rw [failed, found, not_exists]
    exact forall_congr' fun d => not_and

theorem encloses_of_ends {x : Except Error Date} {ends : Date → Edge → Date} {has : Date → Prop}
    (holds : ∀ s, x = .ok s → ∀ d : Date, d.InRange →
      (ends s .first ≤ d ∧ d ≤ ends s .last ↔ has d))
    (found : (∃ s, x = .ok s) ↔ ∃ d : Date, d.InRange ∧ has d) :
    Encloses (fun edge => do return some (ends (← x) edge)) has := by
  have edges := @encloses_of_edges (fun edge => do return ends (← x) edge) has
  cases x with
  | error e =>
    refine edges ?_ ?_
    next =>
      intro first last isFirst
      cases isFirst
    next =>
      rw [← found]
      constructor
      next => rintro ⟨_, isOk⟩; cases isOk
      next => rintro ⟨_, isOk⟩; cases isOk
  | ok s =>
    refine edges ?_ ?_
    next =>
      intro first last isFirst isLast
      cases isFirst
      cases isLast
      exact holds s rfl
    next =>
      rw [← found]
      exact ⟨fun _ => ⟨s, rfl⟩, fun _ => ⟨_, rfl⟩⟩

theorem encloses_day {x : Except Error Date} {has : Date → Prop}
    (named : ∀ d, x = .ok d ↔ d.InRange ∧ has d) :
    Encloses (fun _ => do return some (← x)) has := by
  apply @encloses_of_ends x (fun s _ => s)
  next =>
    intro s isOk d inRange
    -- A single day is the whole period when no other has its numbers.
    have only : has d ↔ s = d := by
      rw [← and_iff_right inRange (b := has d), ← named, isOk, Except.ok.injEq]
    rw [only, Date.le_def, Date.le_def, Date.eq_iff_serial]
    omega
  next => exact exists_congr named

theorem encloses_from_month {year : Int} {month : Nat} {ends : Date → Edge → Date}
    {has : Date → Prop}
    (within : ∀ d, has d → d.year = year ∧ 1 ≤ month ∧ month ≤ 12)
    (inside : 1 ≤ month ∧ month ≤ 12 → ∃ d, has d)
    (holds : 1 ≤ year ∧ year ≤ 9999 → 1 ≤ month ∧ month ≤ 12 → ∀ d,
      ends (Date.on year month 1) .first ≤ d ∧ d ≤ ends (Date.on year month 1) .last ↔ has d) :
    Encloses (fun edge => do return some (ends (← Date.ofYearMonthDay year month 1) edge)) has := by
  apply encloses_of_ends
  next =>
    intro s isOk d inRange
    obtain ⟨known, valid, rfl⟩ := Date.of_ofYearMonthDay isOk
    exact holds known ⟨valid.1, valid.2.1⟩ d
  next =>
    constructor
    next =>
      rintro ⟨s, isOk⟩
      obtain ⟨known, valid, -⟩ := Date.of_ofYearMonthDay isOk
      obtain ⟨d, named⟩ := inside ⟨valid.1, valid.2.1⟩
      rw [← (within d named).1] at known
      exact ⟨d, Date.inRange_iff.mpr known, named⟩
    next =>
      rintro ⟨d, inRange, named⟩
      obtain ⟨rfl, months⟩ := within d named
      have known := Date.inRange_iff.mp inRange
      exact ⟨_, Date.ofYearMonthDay_of_valid known (Date.valid_first d.year months)⟩

theorem encloses_months {chunk : Chunk} {size month : Nat} {year : Int} {settings : Settings}
    {has : Date → Prop} (positive : 0 < size) (divides : size ∣ 12)
    (edges : ∀ (x : Date) (edge : Edge), chunkEdge chunk x settings edge =
      edge.pick (Date.on x.year (Chunk.firstMonth size x.month) 1)
        (Date.on x.year (Chunk.lastMonth size x.month) 1).endOfMonth)
    (named : ∀ d : Date, has d ↔ d.year = year ∧
      Month.spanOf size d.month = Month.spanOf size month ∧ 1 ≤ month ∧ month ≤ 12) :
    Encloses
      (fun edge => do
        return some (chunkEdge chunk (← Date.ofYearMonthDay year month 1) settings edge))
      has := by
  refine @encloses_from_month year month (fun s => chunkEdge chunk s settings) has ?_ ?_ ?_
  next =>
    intro d hasIndices
    have parts := (named d).mp hasIndices
    exact ⟨parts.1, parts.2.2⟩
  next =>
    intro months
    have valid := Date.valid_first year months
    refine ⟨Date.on year month 1, (named _).mpr ⟨Date.year_on valid, ?_, months⟩⟩
    rw [Date.month_on valid]
  next =>
    intro known months d
    have valid := Date.valid_first year months
    rw [edges, edges, Date.year_on valid, Date.month_on valid, named, and_iff_left months]
    exact Chunk.mem_monthSpan_iff positive divides months

theorem encloses_month {year : Int} {month : Nat} :
    Encloses
      (fun edge => do
        let start ← Date.ofYearMonthDay year month 1
        return some (edge.pick start start.endOfMonth))
      (fun d => d.year = year ∧ d.month = month) := by
  refine @encloses_from_month year month (fun s edge => edge.pick s s.endOfMonth) _ ?_ ?_ ?_
  next =>
    rintro d ⟨rfl, rfl⟩
    exact ⟨rfl, d.month_bounds⟩
  next =>
    intro months
    have valid := Date.valid_first year months
    exact ⟨Date.on year month 1, Date.year_on valid, Date.month_on valid⟩
  next =>
    intro known months d
    have last := Date.on_serial year month (Civil.monthLength year month)
    rw [Date.month_eq_iff months, Date.endOfMonth_on (Date.valid_first year months), Date.le_def,
      Date.le_def]
    simp only [Edge.pick]
    omega

theorem plus_in_month {year : Int} {month : Nat} (known : 1 ≤ year ∧ year ≤ 9999)
    (months : 1 ≤ month ∧ month ≤ 12) {day : Nat} (early : 1 ≤ day ∧ day ≤ 28) :
    (Date.on year month 1).plus (day - 1) = Date.on year month day := by
  have room := Date.monthStart_hasRoom known months
  have serial := Date.on_serial year month day
  rw [Date.eq_iff_serial, room.plus_serial (by omega)]
  omega

theorem encloses_halfMonth {year : Int} {month : Nat} {half : MonthHalf} :
    Encloses
      (fun edge => do
        return some (halfMonthEdge (← Date.ofYearMonthDay year month 1) half edge))
      (fun d => d.year = year ∧ d.month = month ∧ half.Holds d.day) := by
  refine @encloses_from_month year month (fun s => halfMonthEdge s half) _ ?_ ?_ ?_
  next =>
    rintro d ⟨rfl, rfl, -⟩
    exact ⟨rfl, d.month_bounds⟩
  next =>
    intro months
    have first := Date.valid_first year months
    have sixteenth := @Date.valid_middle year month 16 months (by decide)
    cases half with
    | a =>
      refine ⟨Date.on year month 1, Date.year_on first, Date.month_on first, ?_⟩
      simp [MonthHalf.Holds, Date.day_on first]
    | b =>
      refine ⟨Date.on year month 16, Date.year_on sixteenth, Date.month_on sixteenth, ?_⟩
      simp [MonthHalf.Holds, Date.day_on sixteenth]
  next =>
    intro known months d
    have inMonth := d.day_bounds
    cases half with
    | a =>
      have fifteenth := @Date.valid_middle year month 15 months (by decide)
      simp only [halfMonthEdge, Edge.pick, MonthHalf.Holds]
      rw [show (14 : Int) = (15 : Nat) - 1 from rfl, plus_in_month known months (by decide),
        Date.on_le_iff (Date.valid_first year months), Date.le_on_iff fifteenth]
      omega
    | b =>
      have sixteenth := @Date.valid_middle year month 16 months (by decide)
      have fits : d.year = year → d.month = month → d.day ≤ Civil.monthLength year month := by
        rintro rfl rfl
        exact inMonth.2
      simp only [halfMonthEdge, Edge.pick, MonthHalf.Holds]
      rw [show (15 : Int) = (16 : Nat) - 1 from rfl, plus_in_month known months (by decide),
        Date.endOfMonth_on (Date.valid_first year months), Date.on_le_iff sixteenth,
        Date.le_on_iff (Date.valid_last year months)]
      omega

theorem ofIsoWeek_monday {d : Date} (inRange : d.InRange) :
    ∃ monday, Date.ofIsoWeek d.isoYear d.isoWeek 1 = .ok monday := by
  obtain ⟨monday, serial⟩ : ∃ e : Date, e.serial = d.serial - (d.serial + 3) % 7 := ⟨⟨_⟩, rfl⟩
  have bounds := inRange.serial_bounds
  have ordinal := monday.ordinal_weekday
  have begins := Date.isoYearBegin_monday d.isoYear
  have room : d.HasRoom 6 := inRange.hasRoom (by decide)
  -- The years 1 to 9999 begin on a Monday, so a week that reaches into them begins in them.
  have mondayInRange : monday.InRange := by
    simp only [Date.InRange, Date.le_def, Date.earliest_serial, Date.latest_serial]
    omega
  have mondayRoom : monday.HasRoom 6 := mondayInRange.hasRoom (by decide)
  have own := (Date.isoWeek_eq_iff room).mp ⟨rfl, rfl⟩
  have coordinates := (Date.isoWeek_eq_iff mondayRoom).mpr ⟨own.1, by omega⟩
  exact ⟨monday, Date.ofIsoWeek_eq_ok.mpr
    ⟨mondayInRange, coordinates.1, coordinates.2, by omega⟩⟩

theorem encloses_isoWeek {year : Int} {week : Nat} :
    Encloses
      (fun edge => do return some (← Date.ofIsoWeek year week (edge.pick 1 7)))
      (fun d => d.isoYear = year ∧ d.isoWeek = week) := by
  apply encloses_of_edges
  next =>
    intro first last isFirst isLast d inRange
    obtain ⟨firstInRange, firstYear, firstWeek, firstDay⟩ := Date.ofIsoWeek_eq_ok.mp isFirst
    obtain ⟨lastInRange, lastYear, lastWeek, lastDay⟩ := Date.ofIsoWeek_eq_ok.mp isLast
    have room : ∀ {e : Date}, e.InRange → e.HasRoom 6 := by
      intro e h
      exact h.hasRoom (by decide)
    -- Monday and Sunday of a week bound it, and both carry its number.
    have firstBounds := (Date.isoWeek_eq_iff (room firstInRange)).mp ⟨firstYear, firstWeek⟩
    have lastBounds := (Date.isoWeek_eq_iff (room lastInRange)).mp ⟨lastYear, lastWeek⟩
    have begins := Date.isoYearBegin_monday year
    have monday := first.ordinal_weekday
    have sunday := last.ordinal_weekday
    rw [Date.isoWeek_eq_iff (room inRange), Date.le_def, Date.le_def]
    simp only [Edge.pick] at firstDay lastDay
    omega
  next =>
    constructor
    next =>
      rintro ⟨s, isMonday⟩
      obtain ⟨inRange, sameYear, sameWeek, -⟩ := Date.ofIsoWeek_eq_ok.mp isMonday
      exact ⟨s, inRange, sameYear, sameWeek⟩
    next =>
      rintro ⟨d, inRange, rfl, rfl⟩
      exact ofIsoWeek_monday inRange

theorem encloses_indices {period : Period} (indexed : period.IsIndexed) (today : Date)
    (settings : Settings) :
    Encloses (period.resolve · today settings) (period.HasIndices today) := by
  cases period with
  | dayOfYear y day => exact encloses_day fun d => Date.ofYearDay_eq_ok
  | month y m day =>
    cases day with
    | none => exact encloses_month.congr fun d => by simp [HasIndices]
    | some day =>
      apply encloses_day
      intro d
      simp [HasIndices, Date.ofYearMonthDay_eq_ok]
  | isoWeek y week day =>
    cases day with
    | none => exact encloses_isoWeek.congr fun d => by simp [HasIndices]
    | some day =>
      apply @encloses_day (Date.ofIsoWeek (y.getD today.year) week day)
      intro d
      simp [HasIndices, Date.ofIsoWeek_eq_ok]
  | quarter y n =>
    apply encloses_months (by decide) (by decide) (fun x edge => rfl)
    intro d
    have months := d.month_bounds
    simp only [HasIndices, Date.quarter, Month.spanOf]
    omega
  | half y n =>
    apply encloses_months (by decide) (by decide) (fun x edge => rfl)
    intro d
    have months := d.month_bounds
    simp only [HasIndices, Date.half, Month.spanOf]
    omega
  | year y =>
    apply encloses_months (by decide) (by decide) (fun x edge => rfl)
    intro d
    have months := d.month_bounds
    simp only [HasIndices, Month.spanOf]
    omega
  | halfMonth y m half => exact encloses_halfMonth
  | nthWeekday y m nth weekday =>
    apply encloses_day
    intro d
    simp only [HasIndices, Date.isNthWeekday_iff]
    constructor
    next =>
      intro isNth
      obtain ⟨inRange, sameYear, -⟩ := Date.nthWeekday_eq_ok.mp isNth
      rw [sameYear]
      exact ⟨inRange, rfl, isNth⟩
    next =>
      rintro ⟨inRange, sameYear, isNth⟩
      rwa [sameYear] at isNth
  | weekOfMonth | easter | relative | forever | never => cases indexed

end Period

namespace Spec

theorem resolve_unskipped {spec : Spec} (unskipped : spec.skip = none) (edge : Edge)
    (today : Date) (settings : Settings) :
    spec.resolve edge today settings = spec.period.resolve edge today settings := by
  unfold resolve
  rw [unskipped]
  cases spec.period.resolve edge today settings <;> rfl

/-- A period that is named by numbers and has no skip holds exactly the days with these numbers,
and it has no first day exactly when no day of the years 1 to 9999 has them. -/
theorem resolve_names_indices {spec : Spec} (indexed : spec.period.IsIndexed)
    (unskipped : spec.skip = none) (today : Date) (settings : Settings) :
    (∀ first last : Date, spec.resolve .first today settings = .ok (some first) →
      spec.resolve .last today settings = .ok (some last) →
      ∀ d : Date, d.InRange → (first ≤ d ∧ d ≤ last ↔ spec.period.HasIndices today d)) ∧
    ((∃ e, spec.resolve .first today settings = .error e) ↔
      ∀ d : Date, d.InRange → ¬spec.period.HasIndices today d) := by
  have encloses := Period.encloses_indices indexed today settings
  simp only [resolve_unskipped unskipped]
  exact ⟨encloses.between, encloses.absent⟩

theorem resolve_names_indices_long_year :
    let week : Spec := ⟨.isoWeek (some 2009) 53 none, none⟩
    let today := Date.on 2024 2 29
    week.resolve .first today {} = .ok (some (Date.on 2009 12 28)) ∧
      week.resolve .last today {} = .ok (some (Date.on 2010 1 3)) ∧
      week.period.HasIndices today (Date.on 2010 1 1) := by
  intro week today
  have monday : Date.ofIsoWeek 2009 53 1 = .ok (Date.on 2009 12 28) :=
    Date.ofIsoWeek_eq_ok.mpr (by decide)
  have sunday : Date.ofIsoWeek 2009 53 7 = .ok (Date.on 2010 1 3) :=
    Date.ofIsoWeek_eq_ok.mpr (by decide)
  have first : week.resolve .first today {} = .ok (some (Date.on 2009 12 28)) := by
    rw [resolve_unskipped rfl]
    exact bind_eq_ok_iff.mpr ⟨_, monday, rfl⟩
  have last : week.resolve .last today {} = .ok (some (Date.on 2010 1 3)) := by
    rw [resolve_unskipped rfl]
    exact bind_eq_ok_iff.mpr ⟨_, sunday, rfl⟩
  have named := (@resolve_names_indices week trivial rfl today {}).1 _ _ first last
  exact ⟨first, last, (named (Date.on 2010 1 1) (by decide)).mp (by decide)⟩

end Spec

end Almanac
