import Harvest.Event.Batch
import Harvest.Failure
import Harvest.Record
import Harvest.Store.Table

/-! The store of events. An event is kept once, as it was first delivered; beside it the store
remembers every relay that it was seen on, so that what is delivered again does no harm. -/

namespace Harvest

structure EventStore where
  /-- The record of each event, by its id. -/
  records : Table String (List UInt8) := {}
  /-- The stamp at which an event was first seen on a relay. -/
  sightings : Table (String × RelayId) UInt64 := {}

namespace EventStore

instance : Ord (String × RelayId) := lexOrd

/-- Takes in one event of a batch, and says whether it was new. -/
def insertEvent (s : EventStore) (relay : RelayId) (observedAt : UInt64) (e : Event) :
    EventStore × Bool :=
  let isNew := (s.records.get? e.id).isNone
  let records :=
    if isNew then s.records.set e.id (Record.putStoredEvent ⟨e, relay, observedAt⟩)
    else s.records
  let sightings :=
    match s.sightings.get? (e.id, relay) with
    | none => s.sightings.set (e.id, relay) observedAt
    | some _ => s.sightings
  ({ records, sightings }, isNew)

def insert (s : EventStore) (b : Batch) : EventStore × Nat :=
  b.events.foldl (fun (s, count) e =>
    let (s, isNew) := s.insertEvent b.relay b.observedAt e
    (s, if isNew then count + 1 else count)) (s, 0)

def load (s : EventStore) (id : String) : Except Failure (Option StoredEvent) :=
  match s.records.get? id with
  | none => .ok none
  | some bytes =>
    match Record.read Record.getStoredEvent bytes with
    | .ok e => .ok (some e)
    | .error fault => .error (.serialization fault.message)

/-- The relays that an event was seen on, read from the first place where its id can stand up to
the first entry of another id. -/
def sources (s : EventStore) (id : String) : List RelayId :=
  ((s.sightings.entriesFrom (id, "")).takeWhile fun ((event, _), _) => event = id).map
    fun ((_, relay), _) => relay

def count (s : EventStore) : Nat := s.records.size

end EventStore

end Harvest
