import Harvest.Store.Relays

/-! Where the relays of a cycle come from: a fixed list in memory, which can be made unreadable, or
the store of relays. -/

namespace Harvest

structure MemoryDirectory where
  relays : List Relay := []
  unreadable : Bool := false

namespace MemoryDirectory

def listEligible (d : MemoryDirectory) : Except Failure (List Relay) :=
  if d.unreadable then .error (.directory "directory unreadable")
  else .ok (d.relays.filter Relay.isEnabled)

end MemoryDirectory

inductive Directory
  | memory (directory : MemoryDirectory)
  | store (relays : RelayStore)

def Directory.listEligible : Directory → Except Failure (List Relay)
  | memory d => d.listEligible
  | store s => s.listEligible

end Harvest
