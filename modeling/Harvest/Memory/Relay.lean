import Harvest.Event
import Harvest.Link.Reply

/-! A simulated relay: it holds a fixed list of events and answers with the newest ones of a window,
cut at its cap. It can refuse connections, break queries, answer late or never, and put payloads
that are no events ahead of each reply. -/

namespace Harvest

structure MemoryRelay where
  events : List Event
  /-- The most items of one reply, whatever is asked for. -/
  cap : Option Nat := none
  /-- It takes connections but never answers. -/
  hangs : Bool := false
  connectFailures : Nat := 0
  queryFailures : Nat := 0
  /-- Payloads ahead of each reply that are no events. -/
  garbage : Nat := 0
  /-- Milliseconds until a reply. -/
  latency : Nat := 0

namespace MemoryRelay

/-- The events of a window, the newest first; those of one second keep their order. -/
def matching (r : MemoryRelay) (w : Window) : List Event :=
  (r.events.filter fun e => w.contains e.stamp).mergeSort fun a b => b.createdAt ≤ a.createdAt

def garbageItem (i : Nat) : Json := .obj [("garbage", .nat i)]

def limit (r : MemoryRelay) (q : WindowQuery) : Nat :=
  match r.cap with
  | none => q.limit
  | some cap => min cap q.limit

def answer (r : MemoryRelay) (q : WindowQuery) : Reply :=
  let limit := r.limit q
  let garbage := (List.range r.garbage).map garbageItem
  let events := ((r.matching q.window).take (limit - garbage.length)).map Event.toJson
  { items := (garbage ++ events).take limit, garbled := 0, exhausted := true }

end MemoryRelay

end Harvest
