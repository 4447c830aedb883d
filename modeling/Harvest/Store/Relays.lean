import Harvest.Failure
import Harvest.Record
import Harvest.Store.Table

/-! The directory of relays: a record for each address. -/

namespace Harvest

structure RelayStore where
  records : Table RelayId (List UInt8) := {}

namespace RelayStore

/-- Saves a relay under its own address, in place of what was there. -/
def save (s : RelayStore) (r : Relay) : RelayStore :=
  { records := s.records.set r.id (Record.putRelay r) }

def decode (bytes : List UInt8) : Except Failure Relay :=
  match Record.read Record.getRelay bytes with
  | .ok r => .ok r
  | .error fault => .error (.serialization fault.message)

def load (s : RelayStore) (id : RelayId) : Except Failure (Option Relay) :=
  match s.records.get? id with
  | none => .ok none
  | some bytes => (decode bytes).map some

/-- All relays in the order of their addresses. One record that cannot be read spoils the list. -/
def list (s : RelayStore) : Except Failure (List Relay) := s.records.values.mapM decode

/-- Sets whether a relay is enabled, and nothing else of it. -/
def setEnabled (s : RelayStore) (id : RelayId) (on : Bool) : Except Failure RelayStore :=
  match s.load id with
  | .error f => .error f
  | .ok none => .error (.relayNotFound id)
  | .ok (some r) => .ok (s.save (r.setEnabled on))

def listEligible (s : RelayStore) : Except Failure (List Relay) :=
  match s.list with
  | .ok relays => .ok (relays.filter Relay.isEnabled)
  | .error f => .error (.directory f.message)

end RelayStore

end Harvest
