import Harvest.Relay

/-! Keeping the queries to one relay apart. The pacer lets a query out at once if the interval has
passed since the one before, and else as soon as it has. -/

namespace Harvest

structure Pacer where
  relay : RelayId
  /-- Fewest milliseconds between two queries. -/
  minInterval : Nat
  last : Option Nat := none
deriving DecidableEq

namespace Pacer

/-- The earliest instant of the next query, once there was one. -/
def ready? (p : Pacer) : Option Nat := p.last.map (· + p.minInterval)

/-- The instant at which a query that is asked for at `now` goes out. -/
def due (p : Pacer) (now : Nat) : Nat := max now (p.ready?.getD 0)

def stamp (p : Pacer) (now : Nat) : Pacer := { p with last := some now }

/-- Waits for the next query, at the instant `now`: the instant of the query, and the pacer that
has noted it. -/
def wait (p : Pacer) (now : Nat) : Nat × Pacer :=
  let out := p.due now
  (out, p.stamp out)

end Pacer

end Harvest
