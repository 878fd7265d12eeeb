import Almanac.Period.Resolve
import Almanac.Workday

set_option autoImplicit false

/-!
# Chains of moves

A chain starts on a date and moves it step by step. A step that fails leaves the date where it is,
and the next step goes on from there.
-/

namespace Almanac

inductive Move
  | set (d : Date)
  | plus (n : Int)
  | minus (n : Int)
  | addDays (n : Int)
  | addMonths (n : Int)
  | addYears (n : Int)
  | step (dir : Direction)
  | beginningOf (chunk : Chunk)
  | endOf (chunk : Chunk)
  | advance (chunk : Chunk) (n : Int)
  | addWorkdays (calendar : Calendar) (n : Int)
  | followingWorkday (calendar : Calendar) (dir : Direction)
  | nearestWorkday (calendar : Calendar) (dir : Direction)
  | skip (skip : Skip)
  | easter
  | resolve (spec : List Char) (edge : Edge)
  deriving DecidableEq, Repr

/-- Where a move leads, unless it is a walk to a workday that there is none of. -/
def Move.apply (settings : Settings) (d : Date) : Move → Option (Except Error Date)
  | .set e => some (.ok e)
  | .plus n => some (.ok (d.plus n))
  | .minus n => some (.ok (d.minus n))
  | .addDays n => some (d.addDays n)
  | .addMonths n => some (d.addMonths n)
  | .addYears n => some (d.addYears n)
  | .step dir => some (.ok (dir.step d))
  | .beginningOf chunk => some (.ok (chunk.beginningOf d settings))
  | .endOf chunk => some (.ok (chunk.endOf d settings))
  | .advance chunk n => some (.ok (chunk.advance d n))
  | .addWorkdays calendar n => (calendar.addWorkdays d n).map .ok
  | .followingWorkday calendar dir => (calendar.followingWorkday dir d).map .ok
  | .nearestWorkday calendar dir => (calendar.nearestWorkday dir d).map .ok
  | .skip s => some (.ok (s.apply d))
  | .easter => some (d.easterOfYear settings)
  | .resolve spec edge => some do return (← Spec.resolveText spec edge d settings).getD d

namespace Chain

def after (d : Date) : Except Error Date → Date
  | .ok e => e
  | .error _ => d

-- The date after each move, or why there is none; a move that was not understood fails too.
def run (settings : Settings) : Date → List (Except Error Move) → Option (List (Except Error Date))
  | _, [] => some []
  | d, move :: moves => do
      let result ← match move with
        | .ok move => move.apply settings d
        | .error e => some (.error e)
      return result :: (← run settings (after d result) moves)

end Chain

end Almanac
