import Harvest.Event

/-! Runs of events for simulated relays: one a second, or all in one second. -/

namespace Harvest.Event

def repeated (pair : String) : String := String.join (List.replicate 32 pair)

/-- One event in each of `count` seconds from `start` on. -/
def spread (count start : Nat) : List Event :=
  (List.range count).map fun i =>
    build (repeated "a1") (UInt64.ofNat (start + i)) 1 [] ("event " ++ toString i)

/-- All of `count` events in the second `stamp`. -/
def burst (count stamp : Nat) : List Event :=
  (List.range count).map fun i =>
    build (repeated "b2") (UInt64.ofNat stamp) 1 [] ("burst " ++ toString i)

end Harvest.Event
