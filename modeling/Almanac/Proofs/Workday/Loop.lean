import Almanac.Proofs.Workday.Count
import Mathlib.Computability.StateTransition

set_option autoImplicit false

/-!
# Loops over days

The walks over workdays as loops that go from day to day for as long as there is a round to make.
A loop gives what the walk gives, and it has no end where the walk has no answer: a step at the end
of the representable days leads nowhere, and the days there are no workdays.
-/

namespace Almanac

open StateTransition (eval)

section

variable {State : Type} {round : State → Option State} {s t : State}

theorem eval_of_last (last : round s = none) : eval round s = Part.some s :=
  Part.eq_some_iff.mpr (StateTransition.mem_eval.mpr ⟨.refl, last⟩)

theorem eval_of_round (h : round s = some t) : eval round s = eval round t :=
  StateTransition.reaches_eval (.single h)

theorem eval_endless (Kept : State → Prop) (start : Kept s)
    (goesOn : ∀ s, Kept s → ∃ t, round s = some t ∧ Kept t) : eval round s = Part.none := by
  have always : ∀ t, StateTransition.Reaches round s t → Kept t := by
    intro t reaches
    induction reaches with
    | refl => exact start
    | tail _ step ih =>
      obtain ⟨u, another, kept⟩ := goesOn _ ih
      rw [Option.mem_def.mp step] at another
      cases another
      exact kept
  rw [Part.eq_none_iff]
  intro last ends
  obtain ⟨reaches, noRound⟩ := StateTransition.mem_eval.mp ends
  obtain ⟨t, another, -⟩ := goesOn last (always last reaches)
  rw [noRound] at another
  cases another

end

namespace Calendar

-- A round of the search for a workday.
def searchRound (calendar : Calendar) (dir : Direction) (d : Date) : Option Date :=
  if calendar.isHoliday d then some (dir.step d) else none

def walkRound (calendar : Calendar) (dir : Direction) : Date × Nat → Option (Date × Nat)
  | (_, 0) => none
  | (d, n + 1) => some (dir.step d, if calendar.isWorkday (dir.step d) then n else n + 1)

def countRound (calendar : Calendar) (last : Date) : Date × Nat → Option (Date × Nat)
  | (d, count) =>
      if d ≤ last then some (d.next, if calendar.isWorkday d then count + 1 else count) else none

def nearestLoop (calendar : Calendar) (dir : Direction) (d : Date) : Part Date :=
  eval (calendar.searchRound dir) d

def addLoop (calendar : Calendar) (d : Date) (n : Int) : Part Date :=
  (eval (calendar.walkRound (if 0 ≤ n then .after else .before)) (d, n.natAbs)).map Prod.fst

def betweenLoop (calendar : Calendar) (a b : Date) : Part Int :=
  if a = b then Part.some 0
  else (eval (calendar.countRound (max a b)) ((min a b).next, 0)).map fun state =>
    if a < b then (state.2 : Int) else -state.2

variable {calendar : Calendar} {dir : Direction} {a b d e : Date} {n count : Nat}

theorem searchRound_workday (workday : calendar.isWorkday d = true) :
    calendar.searchRound dir d = none := by
  rw [searchRound, isWorkday_iff.mp workday]
  rfl

theorem searchRound_holiday (holiday : ¬calendar.isWorkday d = true) :
    calendar.searchRound dir d = some (dir.step d) := by
  rw [isWorkday_iff, Bool.not_eq_false] at holiday
  rw [searchRound, if_pos holiday]

theorem nearestLoop_eq (inside : d.Representable) :
    calendar.nearestLoop dir d = calendar.nearestWorkday dir d := by
  unfold nearestLoop nearestWorkday
  induction d using Direction.seek.induct dir calendar.isWorkday with
  | case1 d workday =>
    rw [eval_of_last (searchRound_workday workday), Direction.seek, if_pos workday]
    rfl
  | case2 d holiday free ih =>
    rw [eval_of_round (searchRound_holiday holiday), ih (dir.representable_step d),
      Direction.seek.eq_def dir _ d, if_neg holiday, if_pos free]
  | case3 d holiday full =>
    -- Each round leaves the last day where it is.
    have stays : calendar.searchRound dir d = some d := by
      rw [searchRound_holiday holiday, Direction.step_eq_self inside full]
    have endless : eval (calendar.searchRound dir) d = Part.none :=
      eval_endless (· = d) rfl fun s same => ⟨d, same ▸ stays, rfl⟩
    rw [endless, Direction.seek, if_neg holiday, if_neg full]
    rfl

theorem eval_walkRound_succ (calendar : Calendar) (dir : Direction) (d : Date) (n : Nat) :
    eval (calendar.walkRound dir) (d, n + 1) =
      (calendar.followingWorkday dir d : Part Date).bind fun m =>
        eval (calendar.walkRound dir) (m, n) := by
  rw [followingWorkday, nearestWorkday]
  -- On a holiday that is not the last day, the walk is where it would be with that day as its start.
  generalize ahead : dir.step d = e
  induction e using Direction.seek.induct dir calendar.isWorkday generalizing d with
  | case1 e workday =>
    have round : calendar.walkRound dir (d, n + 1) = some (e, n) := by
      rw [walkRound, ahead, if_pos workday]
    rw [eval_of_round round, Direction.seek, if_pos workday, Part.coe_some, Part.bind_some]
  | case2 e holiday free ih =>
    have round : calendar.walkRound dir (d, n + 1) = some (e, n + 1) := by
      rw [walkRound, ahead, if_neg holiday]
    rw [eval_of_round round, ih e rfl, Direction.seek.eq_def dir _ e, if_neg holiday, if_pos free]
  | case3 e holiday full =>
    have inside : e.Representable := ahead ▸ dir.representable_step d
    have round : calendar.walkRound dir (d, n + 1) = some (e, n + 1) := by
      rw [walkRound, ahead, if_neg holiday]
    have stays : calendar.walkRound dir (e, n + 1) = some (e, n + 1) := by
      rw [walkRound, Direction.step_eq_self inside full, if_neg holiday]
    have endless : eval (calendar.walkRound dir) (e, n + 1) = Part.none :=
      eval_endless (· = (e, n + 1)) rfl fun s same => ⟨_, same ▸ stays, rfl⟩
    rw [eval_of_round round, endless, Direction.seek, if_neg holiday, if_neg full, Part.coe_none,
      Part.bind_none]

theorem eval_walkRound (calendar : Calendar) (dir : Direction) (n : Nat) (d : Date) :
    eval (calendar.walkRound dir) (d, n) =
      (calendar.walk dir n d : Part Date).map fun r => (r, 0) := by
  induction n generalizing d with
  | zero => rw [eval_of_last rfl, walk, Part.coe_some, Part.map_some]
  | succ n ih =>
    rw [eval_walkRound_succ, walk]
    cases calendar.followingWorkday dir d with
    | none => simp
    | some m => rw [Part.coe_some, Part.bind_some, ih, Option.bind_some]

theorem addLoop_eq (calendar : Calendar) (d : Date) (n : Int) :
    calendar.addLoop d n = calendar.addWorkdays d n := by
  rw [addLoop, eval_walkRound, Part.map_map, addWorkdays]
  exact Part.map_id' (fun _ => rfl) _

theorem eval_countRound (insideE : e.Representable) (below : e < Date.ceiling)
    (inside : d.Representable) (upTo : d.serial ≤ e.serial + 1) (count : Nat) :
    eval (calendar.countRound e) (d, count) =
      Part.some (e.next, count + tally calendar.isWorkday (d.serial - 1) e.serial) := by
  -- The days from the next to be counted on to the last shrink by one with each round.
  obtain ⟨left, days⟩ : ∃ left : Nat, d.serial + left = e.serial + 1 :=
    ⟨(e.serial + 1 - d.serial).toNat, by omega⟩
  induction left generalizing d count with
  | zero =>
    have past : ¬d ≤ e := by
      rw [Date.le_def]
      omega
    have stop : calendar.countRound e (d, count) = none := if_neg past
    have atEnd : d = e.next := Date.ext (by rw [insideE.next_serial below]; omega)
    rw [eval_of_last stop, tally_eq_zero (by omega), atEnd]
    rfl
  | succ left ih =>
    have within : d ≤ e := by
      rw [Date.le_def]
      omega
    have room : d < Date.ceiling := by
      rw [Date.lt_def] at below ⊢
      omega
    have next := inside.next_serial room
    have there : d.next.Representable := Date.representable_plus d 1
    have round : calendar.countRound e (d, count) =
        some (d.next, if calendar.isWorkday d then count + 1 else count) := if_pos within
    have day := tally_day calendar.isWorkday d.serial
    rw [eval_of_round round, ih there (by omega) _ (by omega), next,
      ← tally_add (show d.serial - 1 ≤ d.serial by omega) (show d.serial ≤ e.serial from within),
      day, Int.add_sub_cancel]
    split
    next => rw [Nat.add_assoc]
    next => rw [Nat.zero_add]

-- A count up to the last representable day never gets past it.
theorem eval_countRound_ceiling (inside : d.Representable) (count : Nat) :
    eval (calendar.countRound Date.ceiling) (d, count) = Part.none := by
  apply eval_endless (fun state => state.1.Representable) inside
  intro state inside
  exact ⟨_, if_pos inside.2, Date.representable_plus _ _⟩

theorem eval_countRound_next (insideA : a.Representable) (insideB : b.Representable)
    (before : a < b) (below : b < Date.ceiling) :
    eval (calendar.countRound b) (a.next, 0) =
      Part.some (b.next, calendar.countWorkdays a b) := by
  rw [Date.lt_def] at before
  have room : a < Date.ceiling := Int.lt_trans before below
  have next := insideA.next_serial room
  have there : a.next.Representable := Date.representable_plus a 1
  rw [eval_countRound insideB below there (by omega), next, Int.add_sub_cancel, countWorkdays_eq,
    Nat.zero_add]

theorem betweenLoop_eq (insideA : a.Representable) (insideB : b.Representable) :
    calendar.betweenLoop a b = calendar.workdaysBetween a b := by
  by_cases same : a = b
  next =>
    rw [betweenLoop, if_pos same, workdaysBetween, if_pos same]
    rfl
  next =>
    have boundA : a.serial ≤ Date.ceiling.serial := insideA.2
    have boundB : b.serial ≤ Date.ceiling.serial := insideB.2
    have other : a.serial ≠ b.serial := mt Date.ext same
    rw [betweenLoop, if_neg same]
    by_cases last : Date.ceiling ≤ max a b
    next =>
      have atCeiling : max a b = Date.ceiling := by
        rw [Date.le_def, Date.max_serial] at last
        apply Date.ext
        rw [Date.max_serial]
        omega
      have start : (min a b).next.Representable := Date.representable_plus _ 1
      rw [workdaysBetween_eq_none same last, atCeiling, eval_countRound_ceiling start]
      exact Part.map_none _
    next =>
      have below := last
      rw [Date.le_def, Date.max_serial] at below
      rw [workdaysBetween, if_neg same, if_neg last]
      by_cases before : a < b
      next =>
        have lt : a.serial < b.serial := before
        have first : min a b = a := Date.ext (by rw [Date.min_serial]; omega)
        have later : max a b = b := Date.ext (by rw [Date.max_serial]; omega)
        have room : b < Date.ceiling := show b.serial < Date.ceiling.serial by omega
        rw [first, later, eval_countRound_next insideA insideB before room, Part.map_some]
        simp only [if_pos before, Part.coe_some]
      next =>
        have notLt : ¬a.serial < b.serial := before
        have after : b < a := show b.serial < a.serial by omega
        have first : min a b = b := Date.ext (by rw [Date.min_serial]; omega)
        have later : max a b = a := Date.ext (by rw [Date.max_serial]; omega)
        have room : a < Date.ceiling := show a.serial < Date.ceiling.serial by omega
        rw [first, later, eval_countRound_next insideB insideA after room, Part.map_some]
        simp only [if_neg before, Part.coe_some]

theorem isSome_workdaysBetween :
    (calendar.workdaysBetween a b).isSome = true ↔ a = b ∨ max a b < Date.ceiling := by
  have below : max a b < Date.ceiling ↔ ¬Date.ceiling ≤ max a b := by
    rw [Date.lt_def, Date.le_def]
    omega
  rw [below, workdaysBetween]
  split
  next same => simp [same]
  next other =>
    split
    next last => simp [other, last]
    next notLast =>
      split
      next => simp [notLast]
      next => simp [notLast]

/-- The loops give what the walks give, and they end exactly as long as workdays, or days to count,
are ahead of the day at which steps stop. -/
theorem loops_end_iff (calendar : Calendar) {d e : Date} (insideD : d.Representable)
    (insideE : e.Representable) :
    (∀ n : Int, calendar.addLoop d n = calendar.addWorkdays d n ∧
      ((calendar.addLoop d n).Dom ↔
        n.natAbs ≤ calendar.workdaysAhead (if 0 ≤ n then .after else .before) d)) ∧
    (calendar.nearestLoop .after d = calendar.nearestWorkday .after d ∧
      ((calendar.nearestLoop .after d).Dom ↔ d ≤ Date.on 1000000 12 29)) ∧
    (calendar.nearestLoop .before d = calendar.nearestWorkday .before d ∧
      ((calendar.nearestLoop .before d).Dom ↔ Date.on (-1000000) 1 3 ≤ d)) ∧
    (calendar.betweenLoop d e = calendar.workdaysBetween d e ∧
      ((calendar.betweenLoop d e).Dom ↔ d = e ∨ max d e < Date.ceiling)) := by
  refine ⟨fun n => ⟨addLoop_eq calendar d n, ?_⟩, ⟨nearestLoop_eq insideD, ?_⟩,
    ⟨nearestLoop_eq insideD, ?_⟩, betweenLoop_eq insideD insideE, ?_⟩
  next => rw [addLoop_eq, Part.ofOption_dom, addWorkdays, isSome_walk insideD]
  next =>
    rw [nearestLoop_eq insideD, Part.ofOption_dom, isSome_nearestWorkday insideD]
    rfl
  next =>
    rw [nearestLoop_eq insideD, Part.ofOption_dom, isSome_nearestWorkday insideD]
    rfl
  next => rw [betweenLoop_eq insideD insideE, Part.ofOption_dom, isSome_workdaysBetween]

theorem loops_end_iff_last_week :
    (Date.on 1000000 12 29).Representable ∧ (Date.on 1000000 12 30).Representable ∧
      (exchange.nearestLoop .after (Date.on 1000000 12 29)).Dom ∧
      ¬(exchange.nearestLoop .after (Date.on 1000000 12 30)).Dom ∧
      (exchange.betweenLoop (Date.on 1000000 12 29) (Date.on 1000000 12 30)).Dom := by
  have friday : (Date.on 1000000 12 29).Representable := by decide
  have saturday : (Date.on 1000000 12 30).Representable := by decide
  have fromFriday := exchange.loops_end_iff friday saturday
  have fromSaturday := exchange.loops_end_iff saturday friday
  refine ⟨friday, saturday, fromFriday.2.1.2.mpr (by decide), ?_,
    fromFriday.2.2.2.2.mpr (.inr (by decide))⟩
  exact mt fromSaturday.2.1.2.mp (by decide)

theorem loops_endless_at_limits :
    Date.floor.Representable ∧ Date.ceiling.Representable ∧
      ¬(federal.addLoop Date.ceiling 1).Dom ∧ ¬(exchange.addLoop Date.floor (-1)).Dom ∧
      ¬(federal.nearestLoop .after Date.ceiling).Dom ∧
      ¬(exchange.nearestLoop .before Date.floor).Dom ∧
      ¬(federal.betweenLoop (Date.on 1970 1 1) Date.ceiling).Dom := by
  have first : Date.floor.Representable := by decide
  have last : Date.ceiling.Representable := by decide
  have middle : (Date.on 1970 1 1).Representable := by decide
  refine ⟨first, last, ?_, ?_, ?_, ?_, ?_⟩
  next =>
    have ahead : federal.workdaysAhead .after Date.ceiling = 0 := federal.workdaysAhead_limit .after
    rw [addLoop_eq, Part.ofOption_dom, addWorkdays, isSome_walk last, if_pos (by decide), ahead]
    decide
  next =>
    have ahead : exchange.workdaysAhead .before Date.floor = 0 :=
      exchange.workdaysAhead_limit .before
    rw [addLoop_eq, Part.ofOption_dom, addWorkdays, isSome_walk first, if_neg (by decide), ahead]
    decide
  next =>
    rw [nearestLoop_eq last, Part.ofOption_dom, isSome_nearestWorkday last]
    exact Int.not_le.mpr (by decide)
  next =>
    rw [nearestLoop_eq first, Part.ofOption_dom, isSome_nearestWorkday first]
    exact Int.not_le.mpr (by decide)
  next =>
    rw [betweenLoop_eq middle last, Part.ofOption_dom, isSome_workdaysBetween]
    decide

end Calendar

end Almanac
