import Almanac.Weekday

set_option autoImplicit false

/-!
# Settings
-/

namespace Almanac

/-- The day that weeks start on, and the last year whose Easter is reckoned the Julian way. -/
structure Settings where
  weekStart : Weekday := .monday
  reformYear : Int := 1582
  deriving DecidableEq, Repr

def Settings.weekEnd (settings : Settings) : Weekday :=
  settings.weekStart.previous

end Almanac
