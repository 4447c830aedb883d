import Harvest.Calendar

/-! Stamps are points in time in whole seconds since the start of 1970. Relays stamp their items
so, and every end of a window and every watermark lies on this grid. -/

namespace Harvest.Stamp

/-- Stamps are kept in 64 bits. -/
def limit : Nat := UInt64.size

/-- The text of a stamp. One in the upper half of its range counts back from 1970; one whose year
the calendar does not have is written as a number of seconds. -/
def text (stamp : Nat) : String :=
  let seconds : Int := if stamp < limit / 2 then stamp else (stamp : Int) - limit
  (Calendar.moment? seconds).getD s!"{stamp}s"

/-- The stamp that lies a duration in milliseconds earlier, in whole seconds, not before 1970. -/
def earlierByMillis (stamp millis : Nat) : Nat := stamp - millis / 1000

/-- The stamp that lies some seconds earlier, not before 1970. -/
def earlier (stamp seconds : Nat) : Nat := stamp - seconds

end Harvest.Stamp
