import Harvest.Failure
import Harvest.Relay
import Harvest.Retry
import Harvest.Json.Printer

/-! What a cycle has to know, and what of it holds for one relay. Durations are in milliseconds
where nothing else is said. -/

namespace Harvest

structure Timeouts where
  connect : Nat := 10000
  query : Nat := 15000
deriving DecidableEq, Repr

structure Config where
  /-- From the start of one cycle to the start of the next. -/
  cycleInterval : Nat := 600000
  cycleDeadline : Nat := 540000
  workers : Nat := 4
  sessionsPerWorker : Nat := 32
  /-- The least and the most that a session waits before it starts. -/
  staggerMin : Nat := 0
  staggerMax : Nat := 2000
  /-- Seconds before now at which a relay without watermark begins. -/
  defaultLookback : Nat := 604800
  /-- A reply of this size is taken to be cut. -/
  resultCap : Nat := 500
  /-- Seconds under which a window is not narrowed. -/
  minWindow : Nat := 1
  batchSize : Nat := 200
  minRequestInterval : Nat := 250
  peerBudget : Nat := 180000
  direct : Timeouts := {}
  proxied : Timeouts := { connect := 30000, query := 45000 }
  proxyAddr : Option String := none
  /-- How long sessions have to stop by themselves. -/
  shutdownGrace : Nat := 10000
  queryRetry : RetryPolicy := {}
  sinkRetry : RetryPolicy := { maxAttempts := 5, baseDelay := 200, maxDelay := 5000 }

inductive ConfigFault
  | unreadable
  | malformed
  | tooSmall (field : String)
  | staggerInverted
  | noDeadline
  | noAttempts
  | badProxyAddr
  | noProxy (relay : RelayId)
deriving DecidableEq, Repr

def ConfigFault.message : ConfigFault → String
  | unreadable => "cannot read"
  | malformed => "invalid"
  | tooSmall field => s!"{field} must be at least 1"
  | staggerInverted => "stagger_min_ms exceeds stagger_max_ms"
  | noDeadline => "cycle_deadline_ms must be positive"
  | noAttempts => "retry max_attempts must be at least 1"
  | badProxyAddr => "proxy_addr must be host:port"
  | noProxy relay => s!"relay {relay} is proxied but no proxy_addr is configured"

def ConfigFault.toFailure (f : ConfigFault) : Failure := .config f.message

namespace Config

def fault? (c : Config) : Option ConfigFault :=
  if c.workers = 0 then some (.tooSmall "workers")
  else if c.sessionsPerWorker = 0 then some (.tooSmall "sessions_per_worker")
  else if c.resultCap = 0 then some (.tooSmall "result_cap")
  else if c.batchSize = 0 then some (.tooSmall "batch_size")
  else if c.minWindow = 0 then some (.tooSmall "min_window_secs")
  else if c.staggerMax < c.staggerMin then some .staggerInverted
  else if c.cycleDeadline = 0 then some .noDeadline
  else if c.queryRetry.maxAttempts = 0 ∨ c.sinkRetry.maxAttempts = 0 then some .noAttempts
  else if c.proxyAddr.any fun addr => !addr.toList.contains ':' then some .badProxyAddr
  else none

def validate (c : Config) : Except ConfigFault Unit :=
  match c.fault? with
  | some fault => .error fault
  | none => .ok ()

/-- Checks that every relay can be reached: proxied relays need a proxy. -/
def validateRelays (c : Config) (relays : List Relay) : Except ConfigFault Unit :=
  match c.proxyAddr, relays.find? (·.route = .proxied) with
  | none, some relay => .error (.noProxy relay.id)
  | _, _ => .ok ()

/-- No more connections than this are open at a time. -/
def connectionCeiling (c : Config) : Nat := c.workers * c.sessionsPerWorker

def timeouts (c : Config) : Route → Timeouts
  | .direct => c.direct
  | .proxied => c.proxied

end Config

structure Settings where
  connectTimeout : Nat
  queryTimeout : Nat
  budget : Nat
  resultCap : Nat
  minInterval : Nat
  /-- In seconds. -/
  minWindow : Nat
  batchSize : Nat
  queryRetry : RetryPolicy
  sinkRetry : RetryPolicy

/-- The settings of a relay: its own ones, else those of the configuration. Cap, floor and batch
size are at least one. -/
def Config.settings (c : Config) (relay : Relay) : Settings :=
  let timeouts := c.timeouts relay.route
  let own (value : Option UInt64) (common : Nat) : Nat := (value.map (·.toNat)).getD common
  { connectTimeout := timeouts.connect
    queryTimeout := own relay.overrides.requestTimeout timeouts.query
    budget := own relay.overrides.budget c.peerBudget
    resultCap := max 1 (own relay.overrides.resultCap c.resultCap)
    minInterval := own relay.overrides.minInterval c.minRequestInterval
    minWindow := max 1 c.minWindow
    batchSize := max 1 c.batchSize
    queryRetry := c.queryRetry
    sinkRetry := c.sinkRetry }

/-! ## Writing -/

def Timeouts.toJson (t : Timeouts) : Json :=
  .obj [("connect_ms", .nat t.connect), ("query_ms", .nat t.query)]

def RetryPolicy.toJson (p : RetryPolicy) : Json :=
  .obj [("max_attempts", .nat p.maxAttempts), ("base_delay_ms", .nat p.baseDelay),
    ("max_delay_ms", .nat p.maxDelay), ("multiplier", .real p.multiplier)]

def Config.toJson (c : Config) : Json :=
  .obj [("cycle_interval_ms", .nat c.cycleInterval), ("cycle_deadline_ms", .nat c.cycleDeadline),
    ("workers", .nat c.workers), ("sessions_per_worker", .nat c.sessionsPerWorker),
    ("stagger_min_ms", .nat c.staggerMin), ("stagger_max_ms", .nat c.staggerMax),
    ("default_lookback_secs", .nat c.defaultLookback), ("result_cap", .nat c.resultCap),
    ("min_window_secs", .nat c.minWindow), ("batch_size", .nat c.batchSize),
    ("min_request_interval_ms", .nat c.minRequestInterval), ("peer_budget_ms", .nat c.peerBudget),
    ("direct", c.direct.toJson), ("proxied", c.proxied.toJson),
    ("proxy_addr", .ofOption .str c.proxyAddr), ("shutdown_grace_ms", .nat c.shutdownGrace),
    ("query_retry", c.queryRetry.toJson), ("sink_retry", c.sinkRetry.toJson)]

end Harvest
