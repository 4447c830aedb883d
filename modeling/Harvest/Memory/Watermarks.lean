import Harvest.Relay

/-! Watermarks held in memory: entries in no particular order, put in order when they are listed. -/

namespace Harvest

structure MemoryWatermarks where
  marks : List (RelayId × Nat) := []

namespace MemoryWatermarks

def get? (m : MemoryWatermarks) (relay : RelayId) : Option Nat := m.marks.lookup relay

/-- Raises the entry of a relay to `stamp`, or adds it. -/
def raise (relay : RelayId) (stamp : Nat) : List (RelayId × Nat) → List (RelayId × Nat)
  | [] => [(relay, stamp)]
  | (r, held) :: rest =>
    if r = relay then (r, max held stamp) :: rest else (r, held) :: raise relay stamp rest

def set (m : MemoryWatermarks) (relay : RelayId) (stamp : Nat) : MemoryWatermarks :=
  { marks := raise relay stamp m.marks }

/-- All watermarks in the order of the addresses. -/
def list (m : MemoryWatermarks) : List (RelayId × Nat) :=
  m.marks.mergeSort fun a b => (compare a.1 b.1).isLE

end MemoryWatermarks

end Harvest
