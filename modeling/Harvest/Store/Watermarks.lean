import Harvest.Relay
import Harvest.Store.Table

/-! Watermarks: up to which second a relay is known to be covered. A watermark never moves back; a
lower value than the one that is there is passed over. -/

namespace Harvest

structure WatermarkTable where
  marks : Table RelayId Nat := {}

namespace WatermarkTable

def get? (t : WatermarkTable) (relay : RelayId) : Option Nat := t.marks.get? relay

/-- Writes only where there is no value or a lower one. -/
def set (t : WatermarkTable) (relay : RelayId) (stamp : Nat) : WatermarkTable :=
  match t.marks.get? relay with
  | none => { marks := t.marks.set relay stamp }
  | some held => if held < stamp then { marks := t.marks.set relay stamp } else t

def list (t : WatermarkTable) : List (RelayId × Nat) := t.marks.entries

end WatermarkTable

end Harvest
