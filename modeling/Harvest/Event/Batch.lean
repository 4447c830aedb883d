import Harvest.Event
import Harvest.Relay

/-! Events of one relay on their way to the sink, in the order in which they came. -/

namespace Harvest

structure Batch where
  relay : RelayId
  /-- The stamp of the moment at which the batch was begun or taken. -/
  observedAt : UInt64
  events : List Event
deriving DecidableEq

namespace Batch

def empty (relay : RelayId) (now : UInt64) : Batch := { relay, observedAt := now, events := [] }

def push (b : Batch) (e : Event) : Batch := { b with events := b.events ++ [e] }

def size (b : Batch) : Nat := b.events.length

def isEmpty (b : Batch) : Bool := b.events.isEmpty

/-- The batch as it is handed over at the stamp `now`, and the empty one that is left. -/
def take (b : Batch) (now : UInt64) : Batch × Batch :=
  ({ b with observedAt := now }, { b with events := [] })

end Batch

end Harvest
