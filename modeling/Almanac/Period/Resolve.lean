import Almanac.Date.IsoWeek
import Almanac.Date.NthWeekday
import Almanac.Easter
import Almanac.Period.Reader

set_option autoImplicit false

/-!
# Resolving periods

A period has a first and a last day once the current date and the settings are known.
-/

namespace Almanac

namespace Period

def chunkEdge (chunk : Chunk) (d : Date) (settings : Settings) (edge : Edge) : Date :=
  edge.pick (chunk.beginningOf d settings) (chunk.endOf d settings)

/-- An edge of the nth week of a month. The first week ends where a week of the settings ends, the
others are whole weeks, and the last is cut off at the end of the month. -/
def weekOfMonthEdge (year : Int) (month week : Nat) (settings : Settings) (edge : Edge) :
    Except Error Date := do
  let first ← Date.ofYearMonthDay year month 1
  let last := first.endOfMonth
  let shift := 7 * ((week : Int) - 1)
  let start := max ((first.startOfWeek settings).plus shift) first
  if last < start then .error (.noSuchOccurrence (.week week year month))
  else return edge.pick start (min ((first.endOfWeek settings).plus shift) last)

def halfMonthEdge (first : Date) (half : MonthHalf) (edge : Edge) : Date :=
  match half with
  | .a => edge.pick first (first.plus 14)
  | .b => edge.pick (first.plus 15) first.endOfMonth

def resolve (period : Period) (edge : Edge) (today : Date) (settings : Settings) :
    Except Error (Option Date) :=
  match period with
  | .dayOfYear y day => do return some (← Date.ofYearDay (y.getD today.year) day)
  | .month y m (some day) => do return some (← Date.ofYearMonthDay (y.getD today.year) m day)
  | .month y m none => do
      let start ← Date.ofYearMonthDay (y.getD today.year) m 1
      return some (edge.pick start start.endOfMonth)
  | .isoWeek y week day => do
      return some (← Date.ofIsoWeek (y.getD today.year) week (day.getD (edge.pick 1 7)))
  | .quarter y n => do
      let inside ← Date.ofYearMonthDay (y.getD today.year) (3 * n) 1
      return some (chunkEdge .quarter inside settings edge)
  | .half y n => do
      let inside ← Date.ofYearMonthDay (y.getD today.year) (6 * n) 1
      return some (chunkEdge .half inside settings edge)
  | .year y => do
      let inside ← Date.ofYearMonthDay y 1 1
      return some (chunkEdge .year inside settings edge)
  | .halfMonth y m n => do
      let start ← Date.ofYearMonthDay (y.getD today.year) (m.getD today.month) 1
      return some (halfMonthEdge start n edge)
  | .weekOfMonth y m n => do
      return some (← weekOfMonthEdge (y.getD today.year) (m.getD today.month) n settings edge)
  | .nthWeekday y m nth w => do
      return some (← Date.nthWeekday nth w (y.getD today.year) (m.getD today.month))
  | .easter y offset => do
      let sunday ← Date.easter (y.getD today.year) settings.reformYear
      return some (← sunday.addDays offset)
  | .relative chunk offset =>
      .ok (some (chunkEdge chunk (chunk.advance today offset) settings edge))
  | .forever => .ok (some (edge.pick Date.beginningOfTime Date.endOfTime))
  | .never => .ok none

end Period

namespace Spec

def resolve (spec : Spec) (edge : Edge) (today : Date) (settings : Settings) :
    Except Error (Option Date) := do
  let day ← spec.period.resolve edge today settings
  return match spec.skip with
    | some skip => day.map skip.apply
    | none => day

def resolveText (text : List Char) (edge : Edge) (today : Date) (settings : Settings) :
    Except Error (Option Date) := do
  let spec ← Spec.read text
  spec.resolve edge today settings

end Spec

end Almanac
