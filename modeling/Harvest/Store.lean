import Harvest.Json.Draft
import Harvest.Json.Printer
import Harvest.Store.Events
import Harvest.Store.Relays
import Harvest.Store.Watermarks
import Harvest.Text.Hex

/-! Everything that is kept between cycles, and its form as one JSON value, in which it can be kept
between two runs. Records are written in hexadecimal, so that whatever they hold is kept as it is. -/

namespace Harvest

structure Store where
  events : EventStore := {}
  relays : RelayStore := {}
  watermarks : WatermarkTable := {}

namespace Store

/-! ## Writing -/

def recordJson (entry : String × List UInt8) : Json :=
  .arr [.str entry.1, .str (String.ofList (Text.Hex.encode entry.2))]

def sightingJson (entry : (String × RelayId) × UInt64) : Json :=
  .arr [.str entry.1.1, .str entry.1.2, .nat entry.2.toNat]

def markJson (entry : RelayId × Nat) : Json := .arr [.str entry.1, .nat entry.2]

def toJson (s : Store) : Json :=
  .obj [("events", .ofList recordJson s.events.records.entries),
    ("relays", .ofList recordJson s.relays.records.entries),
    ("sightings", .ofList sightingJson s.events.sightings.entries),
    ("watermarks", .ofList markJson s.watermarks.marks.entries)]

/-! ## Reading -/

def record? : Json → Option (String × List UInt8)
  | .arr [.str key, .str hex] => (Text.Hex.decode? hex.toList).map (key, ·)
  | _ => none

def sighting? : Json → Option ((String × RelayId) × UInt64)
  | .arr [.str event, .str relay, stamp] =>
    (stamp.natBelow? UInt64.size).map fun n => ((event, relay), UInt64.ofNat n)
  | _ => none

def mark? : Json → Option (RelayId × Nat)
  | .arr [.str relay, stamp] => (stamp.natBelow? UInt64.size).map (relay, ·)
  | _ => none

/-- The table of some entries, whatever their order. -/
def table? [Ord κ] (read : Json → Option (κ × α)) (v : Json) : Option (Table κ α) :=
  v.items?.bind fun items =>
    (items.mapM read).map fun entries => entries.foldl (fun t (key, a) => t.set key a) {}

def ofJson? (v : Json) : Option Store := do
  let events ← table? record? (← v.get? "events")
  let relays ← table? record? (← v.get? "relays")
  let sightings ← table? sighting? (← v.get? "sightings")
  let marks ← table? mark? (← v.get? "watermarks")
  return {
    events := { records := events, sightings }
    relays := { records := relays }
    watermarks := { marks } }

def toText (s : Store) : String := s.toJson.text

def ofText? (text : String) : Option Store := (Json.ofText? text).bind ofJson?

end Store

end Harvest
