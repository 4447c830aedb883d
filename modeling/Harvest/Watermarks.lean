import Harvest.Failure
import Harvest.Memory.Watermarks
import Harvest.Store.Watermarks

/-! Where a coordinator keeps its watermarks: in memory or in a table. Reading and writing can be
made to fail, for all relays or for some. -/

namespace Harvest

inductive WatermarkStore
  | memory (marks : MemoryWatermarks)
  | table (marks : WatermarkTable)

namespace WatermarkStore

def get? (relay : RelayId) : WatermarkStore → Option Nat
  | memory m => m.get? relay
  | table t => t.get? relay

def set (relay : RelayId) (stamp : Nat) : WatermarkStore → WatermarkStore
  | memory m => memory (m.set relay stamp)
  | table t => table (t.set relay stamp)

def list : WatermarkStore → List (RelayId × Nat)
  | memory m => m.list
  | table t => t.list

end WatermarkStore

structure Watermarks where
  store : WatermarkStore
  failGet : Bool := false
  failSet : Bool := false
  /-- Relays whose watermark cannot be read, also where others can. -/
  unreadable : RelayId → Bool := fun _ => false
  /-- Relays whose watermark cannot be written, also where others can. -/
  unwritable : RelayId → Bool := fun _ => false

namespace Watermarks

def refusesGet (m : Watermarks) (relay : RelayId) : Bool := m.failGet || m.unreadable relay

def refusesSet (m : Watermarks) (relay : RelayId) : Bool := m.failSet || m.unwritable relay

def get (m : Watermarks) (relay : RelayId) : Except Failure (Option Nat) :=
  if m.refusesGet relay then .error (.storage "get failed") else .ok (m.store.get? relay)

def set (m : Watermarks) (relay : RelayId) (stamp : Nat) : Except Failure Watermarks :=
  if m.refusesSet relay then .error (.storage "set failed")
  else .ok { m with store := m.store.set relay stamp }

def list (m : Watermarks) : List (RelayId × Nat) := m.store.list

end Watermarks

end Harvest
