import Almanac.Holiday.Calendar
import Almanac.Proofs.Week

set_option autoImplicit false

/-!
# The paperwork of 1968

Whether the exchange is closed on a Wednesday of the crisis rests on whether it is closed on four
other days of that week, and whether it is closed on a day rests on whether the day is such a
Wednesday. The four days are none, so the question comes back to the rules once and no more, and the
answer is that of the two layers in which the closures are looked up.
-/

namespace Almanac.Holiday.Exchange

def InCrisis (d : Date) : Prop :=
  d.weekday = .wednesday ∧ paperworkStart ≤ d ∧ d ≤ paperworkEnd

instance (d : Date) : Decidable (InCrisis d) :=
  inferInstanceAs (Decidable (_ ∧ _))

def consulted (d : Date) : List Date :=
  [-2, -1, 1, 2].map d.plus

def specialBy? (paperwork? : Date → Option Bool) (d : Date) : Option Bool :=
  if d ≤ Date.on 1960 1 1 then some false
  else if closures.contains d then some true
  else paperwork? d

-- The rules of the exchange one after another up to the first that closes the day.
def holidayBy? (paperwork? : Date → Option Bool) (d : Date) : Option Bool :=
  if d.isWeekend then some true
  else if Federal.funerals.contains d then some true
  else if isFeast d then some true
  else (specialBy? paperwork? d).bind fun special =>
    if special then some true else some (isObserved d)

-- The days are asked for in their order, and the first that is closed ends the search. There is no
-- answer when the rules would have to be asked again more often than `nesting` allows.
def paperworkWithin? : (nesting : Nat) → Date → Option Bool
  | 0, d => if InCrisis d then none else some false
  | nesting + 1, d =>
      if InCrisis d then
        (consulted d).allM fun e => (holidayBy? (paperworkWithin? nesting) e).map not
      else some false

def specialWithin? (nesting : Nat) : Date → Option Bool :=
  specialBy? (paperworkWithin? nesting)

def holidayWithin? (nesting : Nat) : Date → Option Bool :=
  holidayBy? (paperworkWithin? nesting)

def IsClosedOutright (d : Date) : Prop :=
  d ∈ Federal.funerals ∨ isFeast d = true ∨ d ∈ closures ∨ isObserved d = true

variable {d e : Date}

theorem allM_eq_some {α : Type} {p : α → Option Bool} {q : α → Bool} {xs : List α}
    (answers : ∀ x ∈ xs, p x = some (q x)) : xs.allM p = some (xs.all q) := by
  induction xs with
  | nil => rfl
  | cons x xs ih =>
    obtain ⟨first, others⟩ := List.forall_mem_cons.mp answers
    rw [List.allM_cons, first, ih others, List.all_cons]
    cases q x <;> rfl

theorem isPaperworkDay_eq (d : Date) :
    isPaperworkDay d = (decide (InCrisis d) && (consulted d).all fun e => !isClosed e) := by
  unfold isPaperworkDay InCrisis consulted
  rw [List.all_map]
  by_cases wednesday : d.weekday = .wednesday
  next => simp [wednesday, Function.comp_def]
  next => simp [wednesday]

theorem isPaperworkDay_of_not_inCrisis (other : ¬InCrisis d) : isPaperworkDay d = false := by
  rw [isPaperworkDay_eq, decide_eq_false other, Bool.false_and]

theorem inCrisis_of_isPaperworkDay (paperwork : isPaperworkDay d = true) : InCrisis d := by
  rw [isPaperworkDay_eq, Bool.and_eq_true, decide_eq_true_eq] at paperwork
  exact paperwork.1

section crisis

variable (crisis : InCrisis d)

include crisis

theorem InCrisis.hasRoom : d.HasRoom 12 := by
  have first : paperworkStart.serial = -568 := rfl
  have last : paperworkEnd.serial = -366 := rfl
  obtain ⟨-, low, high⟩ := crisis
  rw [Date.le_def] at low high
  simp only [Date.HasRoom, Date.floor_serial, Date.ceiling_serial]
  omega

theorem InCrisis.mem_consulted_iff :
    e ∈ consulted d ↔ ∃ offset ∈ ([-2, -1, 1, 2] : List Int), e.serial = d.serial + offset := by
  have room := crisis.hasRoom
  rw [consulted, List.mem_map]
  apply exists_congr
  intro offset
  apply and_congr_right
  intro member
  simp only [List.mem_cons, List.not_mem_nil, or_false] at member
  rw [@eq_comm _ _ e, Date.eq_iff_serial, room.plus_serial (by omega)]

theorem InCrisis.mem_consulted_iff_week :
    e ∈ consulted d ↔
      (d.startOfWeek {} ≤ e ∧ e ≤ d.endOfWeek {}) ∧
        e.weekday ∈ [Weekday.monday, .tuesday, .thursday, .friday] := by
  have room := crisis.hasRoom
  have wednesday := Date.weekday_eq_iff.mp crisis.1
  have first := @Date.startOfWeek_serial d {} (room.mono (by decide))
  have last := @Date.endOfWeek_serial d {} room
  rw [crisis.mem_consulted_iff]
  simp only [Date.daysIntoWeek, List.mem_cons, List.not_mem_nil, or_false, Date.le_def,
    Date.weekday_eq_iff, Weekday.sundayIndex, exists_eq_or_imp, exists_eq_left] at *
  omega

theorem InCrisis.not_inCrisis_of_consulted (member : e ∈ consulted d) : ¬InCrisis e := by
  obtain ⟨-, weekday⟩ := crisis.mem_consulted_iff_week.mp member
  rintro ⟨wednesday, -⟩
  rw [wednesday] at weekday
  simp at weekday

end crisis

theorem isHoliday_of_consulted (paperwork : isPaperworkDay d = true) (member : e ∈ consulted d) :
    isHoliday e = false := by
  have crisis := inCrisis_of_isPaperworkDay paperwork
  rw [isPaperworkDay_eq, Bool.and_eq_true, List.all_eq_true] at paperwork
  have notClosed := paperwork.2 e member
  rw [Bool.not_eq_true'] at notClosed
  have noPaperwork := isPaperworkDay_of_not_inCrisis (crisis.not_inCrisis_of_consulted member)
  rw [isHoliday, notClosed, noPaperwork, Bool.or_false]

-- A day that is asked for asks for no further one, so the search for an answer always ends.
theorem wellFounded_consulted :
    WellFounded fun e d => InCrisis d ∧ e ∈ consulted d := by
  refine ⟨fun d => ⟨d, fun e asked => ⟨e, fun x again => ?_⟩⟩⟩
  exact absurd again.1 (asked.1.not_inCrisis_of_consulted asked.2)

theorem closures_tracked : ∀ d ∈ closures, ¬d ≤ Date.on 1960 1 1 := by
  decide

section rules

variable {paperwork? : Date → Option Bool} {b : Bool}

-- The closures are tracked from 1960 on, and no closure that is known lies before.
theorem specialBy?_eq (answer : paperwork? d = some b) (late : b = true → ¬d ≤ Date.on 1960 1 1) :
    specialBy? paperwork? d = some (closures.contains d || b) := by
  unfold specialBy?
  split
  next early =>
    have notListed : d ∉ closures := fun listed => closures_tracked d listed early
    have noPaperwork : b = false := Bool.eq_false_iff.mpr fun isTrue => late isTrue early
    simp [notListed, noPaperwork]
  next =>
    split
    next listed => rw [listed, Bool.true_or]
    next notListed => rw [answer, Bool.eq_false_iff.mpr notListed, Bool.false_or]

theorem holidayBy?_eq (answer : paperwork? d = some b) (late : b = true → ¬d ≤ Date.on 1960 1 1) :
    holidayBy? paperwork? d = some (isClosed d || b) := by
  unfold holidayBy? isClosed
  rw [specialBy?_eq answer late, Option.bind_some]
  split
  next weekend => simp only [weekend, Bool.true_or]
  next noWeekend =>
    split
    next funeral => simp only [funeral, Bool.true_or, Bool.or_true]
    next noFuneral =>
      split
      next feast => simp only [feast, Bool.true_or, Bool.or_true]
      next noFeast =>
        rw [Bool.eq_false_iff.mpr noWeekend, Bool.eq_false_iff.mpr noFuneral,
          Bool.eq_false_iff.mpr noFeast]
        cases closures.contains d <;> cases b <;> simp

end rules

theorem paperworkWithin?_of_not_inCrisis (other : ¬InCrisis d) (nesting : Nat) :
    paperworkWithin? nesting d = some false := by
  cases nesting with
  | zero => exact if_neg other
  | succ nesting => exact if_neg other

theorem holidayWithin?_of_not_inCrisis (other : ¬InCrisis d) (nesting : Nat) :
    holidayWithin? nesting d = some (isClosed d) := by
  rw [holidayWithin?, holidayBy?_eq (paperworkWithin?_of_not_inCrisis other nesting) (by simp),
    Bool.or_false]

theorem paperworkWithin?_zero : paperworkWithin? 0 d = none ↔ InCrisis d := by
  rw [paperworkWithin?]
  split <;> simp [*]

theorem paperworkWithin?_succ (nesting : Nat) (d : Date) :
    paperworkWithin? (nesting + 1) d = some (isPaperworkDay d) := by
  by_cases crisis : InCrisis d
  next =>
    have answers : ∀ e ∈ consulted d,
        (holidayBy? (paperworkWithin? nesting) e).map not = some (!isClosed e) := by
      intro e member
      have known := holidayWithin?_of_not_inCrisis (crisis.not_inCrisis_of_consulted member) nesting
      rw [holidayWithin?] at known
      rw [known, Option.map_some]
    rw [paperworkWithin?, if_pos crisis, allM_eq_some answers, isPaperworkDay_eq,
      decide_eq_true crisis, Bool.true_and]
  next => rw [paperworkWithin?_of_not_inCrisis crisis, isPaperworkDay_of_not_inCrisis crisis]

theorem isPaperworkDay_late (paperwork : isPaperworkDay d = true) : ¬d ≤ Date.on 1960 1 1 := by
  obtain ⟨-, low, -⟩ := inCrisis_of_isPaperworkDay paperwork
  have start : paperworkStart.serial = -568 := rfl
  have tracked : (Date.on 1960 1 1).serial = -3653 := rfl
  rw [Date.le_def] at low ⊢
  omega

theorem isClosed_iff_outright (weekday : e.weekday ∈ [Weekday.monday, .tuesday, .thursday, .friday]) :
    isClosed e = true ↔ IsClosedOutright e := by
  have midweek : e.isWeekend = false := by
    unfold Date.isWeekend
    generalize e.weekday = w at weekday
    cases w <;> simp [Weekday.isWeekend] at weekday ⊢
  simp [isClosed, midweek, IsClosedOutright, or_assoc]

theorem isPaperworkDay_iff_week :
    isPaperworkDay d = true ↔ InCrisis d ∧
      ∀ e, d.startOfWeek {} ≤ e ∧ e ≤ d.endOfWeek {} →
        e.weekday ∈ [Weekday.monday, .tuesday, .thursday, .friday] → ¬IsClosedOutright e := by
  rw [isPaperworkDay_eq, Bool.and_eq_true, decide_eq_true_eq]
  apply and_congr_right
  intro crisis
  simp only [List.all_eq_true, Bool.not_eq_true', crisis.mem_consulted_iff_week, and_imp]
  refine forall_congr' fun e => forall_congr' fun _ => forall_congr' fun _ =>
    forall_congr' fun weekday => ?_
  rw [← isClosed_iff_outright weekday, Bool.not_eq_true]

/-- The rules of the exchange ask for one another without end for no day: where the check of the
paperwork asks for other days, these answer without asking again, and so every day has an answer,
that of the two layers. The Wednesdays that it closes are those of the crisis in whose week no other
day from Monday to Friday is closed by a rule of its own. -/
theorem paperwork_recursion :
    WellFounded (fun e d => InCrisis d ∧ e ∈ consulted d) ∧
    (∀ (nesting : Nat) (d : Date),
      paperworkWithin? (nesting + 1) d = some (isPaperworkDay d) ∧
      specialWithin? (nesting + 1) d = some (isSpecialClosure d) ∧
      holidayWithin? (nesting + 1) d = some (isHoliday d)) ∧
    (∀ d, paperworkWithin? 0 d = none ↔ InCrisis d) ∧
    ∀ d, isPaperworkDay d = true ↔
      (d.weekday = .wednesday ∧ Date.on 1968 6 12 ≤ d ∧ d ≤ Date.on 1968 12 31) ∧
        ∀ e, d.startOfWeek {} ≤ e ∧ e ≤ d.endOfWeek {} →
          e.weekday ∈ [Weekday.monday, .tuesday, .thursday, .friday] →
          ¬(e ∈ Federal.funerals ∨ isFeast e = true ∨ e ∈ closures ∨ isObserved e = true) := by
  refine ⟨wellFounded_consulted, fun nesting d => ?_, fun d => paperworkWithin?_zero,
    fun d => isPaperworkDay_iff_week⟩
  have paperwork := paperworkWithin?_succ nesting d
  exact ⟨paperwork, specialBy?_eq paperwork isPaperworkDay_late,
    holidayBy?_eq paperwork isPaperworkDay_late⟩

theorem paperwork_recursion_independence_week :
    InCrisis (Date.on 1968 7 3) ∧ isPaperworkDay (Date.on 1968 7 3) = false ∧
      paperworkWithin? 0 (Date.on 1968 7 3) = none ∧
      holidayWithin? 1 (Date.on 1968 8 21) = some true := by
  obtain ⟨-, values, unanswered, week⟩ := paperwork_recursion
  have crisis : InCrisis (Date.on 1968 7 3) := by decide
  have feast : isFeast (Date.on 1968 7 4) = true := by decide
  refine ⟨crisis, ?_, (unanswered _).mpr crisis, ?_⟩
  · rw [Bool.eq_false_iff, Ne, week]
    rintro ⟨-, workdays⟩
    exact workdays (Date.on 1968 7 4) (by decide) (by decide) (.inr (.inl feast))
  · rw [(values 0 _).2.2]
    decide

end Almanac.Holiday.Exchange
