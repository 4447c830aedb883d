import Harvest.Memory.Sink
import Harvest.Store.Events

/-! Where batches go: a sink in memory or the store of events, perhaps with a script before it that
delays or refuses batches. -/

namespace Harvest

inductive Depot
  | memory (sink : MemorySink)
  | store (events : EventStore)

namespace Depot

def insert (b : Batch) : Depot → Depot × Except SinkFault Nat
  | memory s =>
    let (s, result) := s.insert b
    (memory s, result)
  | store s =>
    let (s, count) := s.insert b
    (store s, .ok count)

def close : Depot → Depot
  | memory s => memory s.close
  | store s => store s

def holds (id : String) : Depot → Bool
  | memory s => s.ids.contains id
  | store s => (s.records.get? id).isSome

end Depot

/-- What happens at one batch before the depot is asked. -/
structure SinkStep where
  delay : Nat := 0
  refusal : Option SinkFault := none

/-- A batch that was handed over, and the instant at which it was. -/
structure Handed where
  at_ : Nat
  batch : Batch
deriving DecidableEq

structure Sink where
  script : List SinkStep := []
  depot : Depot
  /-- All batches that were handed over, the latest first. -/
  handed : List Handed := []

namespace Sink

/-- A batch is handed over at the instant `now`: takes the next step of the script. -/
def hand (s : Sink) (b : Batch) (now : Nat) : Sink × SinkStep :=
  let s := { s with handed := ⟨now, b⟩ :: s.handed }
  match s.script with
  | [] => (s, {})
  | step :: rest => ({ s with script := rest }, step)

/-- What the sink does with a batch once the delay of its step is over. -/
def take (s : Sink) (b : Batch) (refusal : Option SinkFault) : Sink × Except SinkFault Nat :=
  match refusal with
  | some fault => (s, .error fault)
  | none =>
    let (depot, result) := s.depot.insert b
    ({ s with depot }, result)

def close (s : Sink) : Sink := { s with depot := s.depot.close }

end Sink

end Harvest
