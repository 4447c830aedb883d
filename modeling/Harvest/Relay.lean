/-! Relays: where they are, how they are reached, and what an operator has set for them alone. -/

namespace Harvest

/-- The address that is dialled. It names the relay. -/
abbrev RelayId := String

inductive Route
  | direct
  /-- Through the proxy. -/
  | proxied
deriving DecidableEq, Repr, Inhabited

def Route.text : Route → String
  | .direct => "direct"
  | .proxied => "proxied"

/-- Settings of one relay that win over those of the configuration. -/
structure Overrides where
  /-- Most milliseconds of one query. -/
  requestTimeout : Option UInt64 := none
  /-- Most milliseconds of one session. -/
  budget : Option UInt64 := none
  /-- Most items that the relay sends for one query. -/
  resultCap : Option UInt64 := none
  /-- Fewest milliseconds between two queries. -/
  minInterval : Option UInt64 := none
  enabled : Bool := true
deriving DecidableEq, Repr, Inhabited

structure Relay where
  id : RelayId
  route : Route := .direct
  overrides : Overrides := {}
deriving DecidableEq, Repr, Inhabited

namespace Relay

def isEnabled (r : Relay) : Bool := r.overrides.enabled

def setEnabled (r : Relay) (on : Bool) : Relay :=
  { r with overrides := { r.overrides with enabled := on } }

end Relay

end Harvest
