import Almanac.Text.Blank
import Almanac.Text.Letter

set_option autoImplicit false

/-!
# Months by name
-/

namespace Almanac

inductive Month
  | january | february | march | april | may | june
  | july | august | september | october | november | december
  deriving DecidableEq, Repr

namespace Month

def all : List Month :=
  [.january, .february, .march, .april, .may, .june,
   .july, .august, .september, .october, .november, .december]

def number : Month → Nat
  | .january => 1
  | .february => 2
  | .march => 3
  | .april => 4
  | .may => 5
  | .june => 6
  | .july => 7
  | .august => 8
  | .september => 9
  | .october => 10
  | .november => 11
  | .december => 12

def ofNumber? (n : Nat) : Option Month :=
  all.find? fun m => m.number == n

def name : Month → String
  | .january => "January"
  | .february => "February"
  | .march => "March"
  | .april => "April"
  | .may => "May"
  | .june => "June"
  | .july => "July"
  | .august => "August"
  | .september => "September"
  | .october => "October"
  | .november => "November"
  | .december => "December"

def shortName (m : Month) : String :=
  String.ofList (m.name.toList.take 3)

def ofName? (text : List Char) : Option Month :=
  all.find? fun m => Text.sameLetters (m.name.toList.take 3) ((Text.trim text).take 3)

def spanOf (size month : Nat) : Nat :=
  (month - 1) / size + 1

def half (m : Month) : Nat :=
  spanOf 6 m.number

def quarter (m : Month) : Nat :=
  spanOf 3 m.number

def bimonth (m : Month) : Nat :=
  spanOf 2 m.number

theorem ofNumber?_number (m : Month) : ofNumber? m.number = some m := by
  cases m <;> rfl

end Month

end Almanac
