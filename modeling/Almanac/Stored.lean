import Almanac.Holiday.Calendar
import Almanac.Period.Basic
import Almanac.Date.Reader

set_option autoImplicit false

/-!
# Stored values

How the values of this library are kept in a structured document: a date as its text, a name as it
is spelled, and settings as a record whose missing fields take their defaults.
-/

namespace Almanac

/-- A value of a document; `fraction` stands for all numbers that are not written as integers. -/
inductive Stored
  | null
  | bool (b : Bool)
  | integer (n : Int)
  | fraction
  | text (s : String)
  | list (values : List Stored)
  | record (fields : List (String × Stored))
  deriving Inhabited

namespace Stored

def spelledMonth : List (String × Month) :=
  Month.all.map fun m => (m.name, m)

def spelledWeekday : List (String × Weekday) :=
  Weekday.all.map fun w => (w.name, w)

def spelledChunk : List (String × Chunk) :=
  Chunk.all.map fun c => (c.name, c)

def spelledEdge : List (String × Edge) :=
  [(Edge.first.name, .first), (Edge.last.name, .last)]

def spelledCalendar : List (String × Calendar) :=
  [("federal", .federal), ("exchange", .exchange)]

def named? {α : Type} (spelled : List (String × α)) : Stored → Option α
  | .text s => spelled.lookup s
  | .record [(s, .null)] => spelled.lookup s
  | _ => none

def date? : Stored → Option Date
  | .text s => (Date.readIso s.toList).toOption
  | _ => none

def reformYear? : Stored → Option Int
  | .integer n => if Date.IsWord n then some n else none
  | _ => none

-- What is missing takes its default; what is there has to be right.
def orDefault {α : Type} (default : α) (decode : Stored → Option α) : Option Stored → Option α
  | none => some default
  | some value => decode value

def settingsOf? (weekStart reformYear : Option Stored) : Option Settings := do
  let default : Settings := {}
  let weekStart ← orDefault default.weekStart (named? spelledWeekday) weekStart
  let reformYear ← orDefault default.reformYear reformYear? reformYear
  return { weekStart, reformYear }

def settings? : Stored → Option Settings
  | .record fields => settingsOf? (fields.lookup "week_start") (fields.lookup "reform_year")
  | .list [] => settingsOf? none none
  | .list [a] => settingsOf? (some a) none
  | .list [a, b] => settingsOf? (some a) (some b)
  | _ => none

def ofSettings (settings : Settings) : Stored :=
  .record
    [("week_start", .text settings.weekStart.name), ("reform_year", .integer settings.reformYear)]

inductive Kind
  | date | month | weekday | chunk | edge | calendar | settings
  deriving DecidableEq, Repr

def spelling? {α : Type} [DecidableEq α] (spelled : List (String × α)) (a : α) : Option Stored :=
  (spelled.find? fun entry => entry.2 == a).map fun entry => .text entry.1

def restore? : Kind → Stored → Option Stored
  | .date, v => (date? v).map fun d => .text d.text
  | .month, v => (named? spelledMonth v).bind (spelling? spelledMonth)
  | .weekday, v => (named? spelledWeekday v).bind (spelling? spelledWeekday)
  | .chunk, v => (named? spelledChunk v).bind (spelling? spelledChunk)
  | .edge, v => (named? spelledEdge v).bind (spelling? spelledEdge)
  | .calendar, v => (named? spelledCalendar v).bind (spelling? spelledCalendar)
  | .settings, v => (settings? v).map ofSettings

end Stored

end Almanac
