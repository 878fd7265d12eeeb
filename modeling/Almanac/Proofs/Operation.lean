import Almanac.Chain
import Almanac.Proofs.Chunk.Word

set_option autoImplicit false

/-!
# Runs of date arithmetic

A run applies one operation after another to a date, and an operation that fails leaves the date as
it is. The days at which adding stops enclose every date of a run, and no step of it leaves the
words or the bytes.
-/

namespace Almanac

inductive Operation
  | plus (n : Int)
  | minus (n : Int)
  | next
  | previous
  | startOfMonth
  | endOfMonth
  | beginningOf (chunk : Chunk) (settings : Settings)
  | endOf (chunk : Chunk) (settings : Settings)
  | advance (chunk : Chunk) (n : Int)
  | startOfWeek (settings : Settings)
  | endOfWeek (settings : Settings)
  | skip (skip : Skip)
  | addDays (n : Int)
  | addMonths (n : Int)
  | addYears (n : Int)
  deriving DecidableEq, Repr

namespace Operation

def apply (d : Date) : Operation → Except Error Date
  | .plus n => .ok (d.plus n)
  | .minus n => .ok (d.minus n)
  | .next => .ok d.next
  | .previous => .ok d.previous
  | .startOfMonth => .ok d.startOfMonth
  | .endOfMonth => .ok d.endOfMonth
  | .beginningOf chunk settings => .ok (chunk.beginningOf d settings)
  | .endOf chunk settings => .ok (chunk.endOf d settings)
  | .advance chunk n => .ok (chunk.advance d n)
  | .startOfWeek settings => .ok (d.startOfWeek settings)
  | .endOfWeek settings => .ok (d.endOfWeek settings)
  | .skip s => .ok (s.apply d)
  | .addDays n => d.addDays n
  | .addMonths n => d.addMonths n
  | .addYears n => d.addYears n

def inWords? (d : Date) : Operation → Option (Except Error Date)
  | .plus n => some (.ok (Word.plus d n))
  | .minus n => some (.ok (Word.minus d n))
  | .next => some (.ok (Word.plus d 1))
  | .previous => some (.ok (Word.minus d 1))
  | .startOfMonth => (Word.startOfMonth? d).map .ok
  | .endOfMonth => (Word.endOfMonth? d).map .ok
  | .beginningOf chunk settings => (Word.beginningOf? chunk d settings).map .ok
  | .endOf chunk settings => (Word.endOf? chunk d settings).map .ok
  | .advance chunk n => (Word.advance? chunk d n).map .ok
  | .startOfWeek settings => (Word.startOfWeek? d settings).map .ok
  | .endOfWeek settings => (Word.endOfWeek? d settings).map .ok
  | .skip s => (Word.skip? s d).map .ok
  | .addDays n => Word.addDays? d n
  | .addMonths n => Word.addMonths? d n
  | .addYears n => Word.addYears? d n

def Fits : Operation → Prop
  | .plus n | .minus n | .advance _ n | .addDays n | .addMonths n | .addYears n => Date.IsWord n
  | _ => True

instance (op : Operation) : Decidable op.Fits := by
  cases op <;> unfold Fits <;> infer_instance

def IsChecked : Operation → Prop
  | .addDays _ | .addMonths _ | .addYears _ => True
  | _ => False

def visited (d : Date) : List Operation → List Date
  | [] => [d]
  | op :: ops => d :: visited (Chain.after d (op.apply d)) ops

def visited? (d : Date) : List Operation → Option (List Date)
  | [] => some [d]
  | op :: ops => do return d :: (← visited? (Chain.after d (← op.inWords? d)) ops)

variable {d e : Date} {op : Operation}

theorem inWords?_eq (inYears : d.Representable) (fits : op.Fits) :
    op.inWords? d = some (op.apply d) := by
  have near := Word.near_of_representable inYears
  cases op with
  | plus n => exact congrArg (some ∘ Except.ok) (Word.plus_eq d n)
  | minus n => exact congrArg (some ∘ Except.ok) (Word.minus_eq d n)
  | next => exact congrArg (some ∘ Except.ok) (Word.plus_eq d 1)
  | previous => exact congrArg (some ∘ Except.ok) (Word.minus_eq d 1)
  | startOfMonth => exact congrArg (Option.map Except.ok) (Word.startOfMonth?_eq inYears)
  | endOfMonth => exact congrArg (Option.map Except.ok) (Word.endOfMonth?_eq inYears)
  | beginningOf chunk settings =>
    exact congrArg (Option.map Except.ok) (Word.beginningOf?_eq inYears chunk settings)
  | endOf chunk settings =>
    exact congrArg (Option.map Except.ok) (Word.endOf?_eq inYears chunk settings)
  | advance chunk n => exact congrArg (Option.map Except.ok) (Word.advance?_eq inYears chunk fits)
  | startOfWeek settings =>
    exact congrArg (Option.map Except.ok) (Word.startOfWeek?_eq near settings)
  | endOfWeek settings =>
    exact congrArg (Option.map Except.ok) (Word.endOfWeek?_eq near settings)
  | skip s => exact congrArg (Option.map Except.ok) (Word.skip?_eq inYears s)
  | addDays n => exact Word.addDays?_eq inYears n
  | addMonths n => exact Word.addMonths?_eq inYears n
  | addYears n => exact Word.addYears?_eq inYears n

theorem inRange_of_checked (checked : op.IsChecked) (ok : op.apply d = .ok e) : e.InRange := by
  cases op with
  | addDays n =>
    simp only [apply, Date.addDays] at ok
    split at ok
    next => exact (Date.ofSerial_eq_ok.mp ok).1
    next => cases ok
  | addMonths n | addYears n => exact (Date.ofSerial_eq_ok.mp ok).1
  | _ => cases checked

theorem representable_apply (inYears : d.Representable) (ok : op.apply d = .ok e) :
    e.Representable := by
  cases op with
  | plus n | next =>
    cases ok
    exact d.representable_plus _
  | minus n | previous =>
    cases ok
    exact d.representable_minus _
  | startOfMonth =>
    cases ok
    exact inYears.startOfMonth
  | endOfMonth =>
    cases ok
    exact inYears.endOfMonth
  | beginningOf chunk settings =>
    cases ok
    exact chunk.representable_beginningOf inYears settings
  | endOf chunk settings =>
    cases ok
    exact chunk.representable_endOf inYears settings
  | advance chunk n =>
    cases ok
    exact chunk.representable_advance inYears n
  | startOfWeek settings =>
    cases ok
    exact d.representable_minus _
  | endOfWeek settings =>
    cases ok
    exact Date.representable_plus _ _
  | skip s =>
    cases ok
    exact s.representable_apply d
  | addDays n | addMonths n | addYears n => exact (inRange_of_checked (by trivial) ok).representable

theorem representable_after (inYears : d.Representable) (op : Operation) :
    (Chain.after d (op.apply d)).Representable := by
  cases result : op.apply d with
  | ok e => exact representable_apply inYears result
  | error _ => exact inYears

theorem representable_of_visited {ops : List Operation} (inYears : d.Representable)
    (member : e ∈ visited d ops) : e.Representable := by
  induction ops generalizing d with
  | nil =>
    rw [visited, List.mem_singleton] at member
    exact member ▸ inYears
  | cons op ops ih =>
    rw [visited, List.mem_cons] at member
    rcases member with rfl | later
    next => exact inYears
    next => exact ih (representable_after inYears op) later

theorem visited?_eq {ops : List Operation} (inYears : d.Representable)
    (fits : ∀ op ∈ ops, op.Fits) : visited? d ops = some (visited d ops) := by
  induction ops generalizing d with
  | nil => rfl
  | cons op ops ih =>
    obtain ⟨own, others⟩ := List.forall_mem_cons.mp fits
    have rest := ih (representable_after inYears op) others
    rw [visited?, inWords?_eq inYears own, Word.some_bind_eq, rest, visited]
    rfl

/-- Every date of a run lies between the days at which adding stops and in a week from 1 to 53, what
is checked leads into the years 1 to 9999, and the run is the same in words and bytes, where no step
overflows. -/
theorem visited_closed {ops : List Operation} (inYears : d.Representable)
    (fits : ∀ op ∈ ops, op.Fits) :
    visited? d ops = some (visited d ops) ∧
      ∀ e ∈ visited d ops, e.Representable ∧
        (∀ settings : Settings, 1 ≤ e.weekNumber settings ∧ e.weekNumber settings ≤ 53 ∧
          Word.weekNumber? e settings = some (e.weekNumber settings)) ∧
        ∀ (op : Operation) (x : Date), op.IsChecked → op.apply e = .ok x → x.InRange := by
  refine ⟨visited?_eq inYears fits, fun e member => ?_⟩
  have within := representable_of_visited inYears member
  refine ⟨within, fun settings => ?_, fun _ _ => inRange_of_checked⟩
  have week := Date.weekNumber_bounds within settings
  exact ⟨week.1, week.2, Word.weekNumber?_eq within settings⟩

-- From one end of the years to the other and back, and beyond the words.
theorem visited_closed_far_moves :
    let ops := [advance .year 200000000, plus 2147483647, minus 2147483647, addDays (-2147483648)]
    let dates := [Date.floor, Date.on 1000000 12 1, Date.ceiling, Date.floor, Date.floor]
    (Date.floor.Representable ∧ ∀ op ∈ ops, op.Fits) ∧
      visited Date.floor ops = dates ∧ visited? Date.floor ops = some dates ∧
      Word.weekNumber? Date.ceiling {} = some (Date.ceiling.weekNumber {}) := by
  intro ops dates
  have inYears : Date.floor.Representable := by decide
  have fits : ∀ op ∈ ops, op.Fits := by decide
  have run : visited Date.floor ops = dates := by decide
  obtain ⟨words, closed⟩ := visited_closed inYears fits
  rw [run] at words closed
  obtain ⟨-, weeks, -⟩ := closed Date.ceiling (by decide)
  exact ⟨⟨inYears, fits⟩, run, words, (weeks {}).2.2⟩

end Operation

end Almanac
