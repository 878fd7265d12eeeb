import Almanac.Chain
import Almanac.Chunk
import Almanac.Civil
import Almanac.Date.Basic
import Almanac.Date.Checked
import Almanac.Date.IsoWeek
import Almanac.Date.NthWeekday
import Almanac.Date.Reader
import Almanac.Date.Shift
import Almanac.Easter
import Almanac.Error
import Almanac.Holiday.Calendar
import Almanac.Holiday.Exchange
import Almanac.Holiday.Feast
import Almanac.Holiday.Federal
import Almanac.Month
import Almanac.Period.Basic
import Almanac.Period.Form
import Almanac.Period.Reader
import Almanac.Period.Resolve
import Almanac.Proofs.Chunk.Additive
import Almanac.Proofs.Chunk.Advance
import Almanac.Proofs.Chunk.Direction
import Almanac.Proofs.Chunk.Index
import Almanac.Proofs.Chunk.Monotone
import Almanac.Proofs.Chunk.Nested
import Almanac.Proofs.Chunk.Numbering
import Almanac.Proofs.Chunk.Partition
import Almanac.Proofs.Chunk.Representable
import Almanac.Proofs.Chunk.Span
import Almanac.Proofs.Chunk.Word
import Almanac.Proofs.Civil.Julian
import Almanac.Proofs.Civil.March
import Almanac.Proofs.Civil.Order
import Almanac.Proofs.Civil.Word
import Almanac.Proofs.Date.American
import Almanac.Proofs.Date.Checked
import Almanac.Proofs.Date.CheckedMove
import Almanac.Proofs.Date.Civil
import Almanac.Proofs.Date.DayOfYear
import Almanac.Proofs.Date.DaysOn
import Almanac.Proofs.Date.HalfYear
import Almanac.Proofs.Date.IsoCalendar
import Almanac.Proofs.Date.IsoText
import Almanac.Proofs.Date.IsoWeek
import Almanac.Proofs.Date.NthWeekday
import Almanac.Proofs.Date.Occurrence
import Almanac.Proofs.Date.Readers
import Almanac.Proofs.Date.Representable
import Almanac.Proofs.Date.Shift
import Almanac.Proofs.Date.Word
import Almanac.Proofs.Easter
import Almanac.Proofs.EasterWord
import Almanac.Proofs.Epact
import Almanac.Proofs.Error
import Almanac.Proofs.Holiday.Exchange
import Almanac.Proofs.Holiday.Federal
import Almanac.Proofs.Holiday.GoodFriday
import Almanac.Proofs.Holiday.Page
import Almanac.Proofs.Holiday.Paperwork
import Almanac.Proofs.Holiday.Run
import Almanac.Proofs.Holiday.Spot
import Almanac.Proofs.Holiday.Yearly
import Almanac.Proofs.JulianEaster
import Almanac.Proofs.Operation
import Almanac.Proofs.Period.Build
import Almanac.Proofs.Period.Case
import Almanac.Proofs.Period.Edges
import Almanac.Proofs.Period.Faithful
import Almanac.Proofs.Period.Fields
import Almanac.Proofs.Period.Forms
import Almanac.Proofs.Period.Indices
import Almanac.Proofs.Period.Ordered
import Almanac.Proofs.Period.Outcome
import Almanac.Proofs.Period.Pieces
import Almanac.Proofs.Period.Ranges
import Almanac.Proofs.Period.Reads
import Almanac.Proofs.Period.RoundTrip
import Almanac.Proofs.Period.Skip
import Almanac.Proofs.Period.Taken
import Almanac.Proofs.Period.WeekOfMonth
import Almanac.Proofs.Period.WeekdayWalk
import Almanac.Proofs.Period.Written
import Almanac.Proofs.Text.Blank
import Almanac.Proofs.Text.Case
import Almanac.Proofs.Text.Letter
import Almanac.Proofs.Text.Numeral
import Almanac.Proofs.Text.Outline
import Almanac.Proofs.Text.Pattern
import Almanac.Proofs.Text.Script
import Almanac.Proofs.Text.Tidy
import Almanac.Proofs.Week
import Almanac.Proofs.WeekNumber
import Almanac.Proofs.Workday.Count
import Almanac.Proofs.Workday.Loop
import Almanac.Proofs.Workday.Nearest
import Almanac.Proofs.Workday.Shift
import Almanac.Proofs.Workday.Tally
import Almanac.Proofs.Workday.Walk
import Almanac.Settings
import Almanac.Stored
import Almanac.Text.Blank
import Almanac.Text.Digit
import Almanac.Text.Letter
import Almanac.Text.Numeral
import Almanac.Text.Pattern
import Almanac.Week
import Almanac.Weekday
import Almanac.Word
import Almanac.Workday
