import Harvest.Event.Batch
import Harvest.Failure

/-! A sink that remembers which events it was given. It can be told to refuse batches. -/

namespace Harvest

structure MemorySink where
  /-- The ids of the events that it holds, each once, the latest first. -/
  ids : List String := []
  /-- Batches it was handed, refused ones included. -/
  calls : Nat := 0
  /-- Events in the batches that it took, repeated ones included. -/
  delivered : Nat := 0
  failuresLeft : Nat := 0
  failAlways : Bool := false
  closed : Nat := 0

namespace MemorySink

def addIds (held : List String) (events : List Event) : List String × Nat :=
  events.foldl (fun (held, count) e =>
    if held.contains e.id then (held, count) else (e.id :: held, count + 1)) (held, 0)

/-- Hands over a batch; the answer is how many of its events were new. -/
def insert (s : MemorySink) (b : Batch) : MemorySink × Except SinkFault Nat :=
  let s := { s with calls := s.calls + 1 }
  if s.failAlways then (s, .error (.write "sink unavailable"))
  else
    match s.failuresLeft with
    | left + 1 => ({ s with failuresLeft := left }, .error (.write "injected failure"))
    | 0 =>
      let (ids, count) := addIds s.ids b.events
      ({ s with ids, delivered := s.delivered + b.size }, .ok count)

def close (s : MemorySink) : MemorySink := { s with closed := s.closed + 1 }

def size (s : MemorySink) : Nat := s.ids.length

end MemorySink

end Harvest
