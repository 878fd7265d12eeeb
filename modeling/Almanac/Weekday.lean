import Almanac.Text.Blank
import Almanac.Text.Letter

set_option autoImplicit false

/-!
# Days of the week
-/

namespace Almanac

inductive Weekday
  | sunday | monday | tuesday | wednesday | thursday | friday | saturday
  deriving DecidableEq, Repr

namespace Weekday

def all : List Weekday :=
  [.sunday, .monday, .tuesday, .wednesday, .thursday, .friday, .saturday]

def sundayIndex : Weekday → Nat
  | .sunday => 0
  | .monday => 1
  | .tuesday => 2
  | .wednesday => 3
  | .thursday => 4
  | .friday => 5
  | .saturday => 6

def ordinal : Weekday → Nat
  | .sunday => 7
  | w => w.sundayIndex

def afterSunday (n : Int) : Weekday :=
  match (n % 7).toNat with
  | 0 => .sunday
  | 1 => .monday
  | 2 => .tuesday
  | 3 => .wednesday
  | 4 => .thursday
  | 5 => .friday
  | _ => .saturday

def ofSundayIndex? (n : Nat) : Option Weekday :=
  all[n]?

def ofOrdinal? (n : Nat) : Option Weekday :=
  all.find? fun w => w.ordinal == n

def isWeekend : Weekday → Bool
  | .saturday | .sunday => true
  | _ => false

def daysUntil (a b : Weekday) : Nat :=
  (b.sundayIndex + 7 - a.sundayIndex) % 7

def next (w : Weekday) : Weekday :=
  afterSunday (w.sundayIndex + 1)

def previous (w : Weekday) : Weekday :=
  afterSunday (w.sundayIndex - 1)

def name : Weekday → String
  | .sunday => "Sunday"
  | .monday => "Monday"
  | .tuesday => "Tuesday"
  | .wednesday => "Wednesday"
  | .thursday => "Thursday"
  | .friday => "Friday"
  | .saturday => "Saturday"

def shortName : Weekday → String
  | .sunday => "Sun"
  | .monday => "Mon"
  | .tuesday => "Tue"
  | .wednesday => "Wed"
  | .thursday => "Thu"
  | .friday => "Fri"
  | .saturday => "Sat"

def initials : Weekday → List Char
  | .sunday => ['s', 'u']
  | .monday => ['m', 'o']
  | .tuesday => ['t', 'u']
  | .wednesday => ['w', 'e']
  | .thursday => ['t', 'h']
  | .friday => ['f', 'r']
  | .saturday => ['s', 'a']

def ofName? (text : List Char) : Option Weekday :=
  all.find? fun w => w.initials == Text.lower ((Text.trim text).take 2)

theorem sundayIndex_lt (w : Weekday) : w.sundayIndex < 7 := by
  cases w <;> decide

theorem daysUntil_lt (a b : Weekday) : a.daysUntil b < 7 :=
  Nat.mod_lt _ (by decide)

@[simp] theorem afterSunday_sundayIndex (w : Weekday) : afterSunday w.sundayIndex = w := by
  cases w <;> rfl

theorem sundayIndex_afterSunday (n : Int) : ((afterSunday n).sundayIndex : Int) = n % 7 := by
  obtain ⟨k, hk⟩ : ∃ k : Nat, n % 7 = k := ⟨(n % 7).toNat, by omega⟩
  have small : k < 7 := by omega
  rw [afterSunday, hk, Int.toNat_natCast]
  match k, small with
  | 0, _ | 1, _ | 2, _ | 3, _ | 4, _ | 5, _ | 6, _ => rfl

theorem sundayIndex_injective {a b : Weekday} (h : a.sundayIndex = b.sundayIndex) : a = b := by
  rw [← afterSunday_sundayIndex a, h, afterSunday_sundayIndex]

theorem ofOrdinal?_ordinal (w : Weekday) : ofOrdinal? w.ordinal = some w := by
  cases w <;> rfl

end Weekday

end Almanac
