import Harvest.Config
import Harvest.Json.Record

/-! Reading a configuration from its text. Every field may be left out and then has its default.
A group of timeouts or a retry policy that is given in part is filled up with the defaults of its
own kind, not with those of the place where it stands. -/

namespace Harvest

open Json (Slot Draft)

/-- Whole numbers of a configuration have 64 bits. -/
def Config.count? : Draft → Option Nat := Draft.natBelow? UInt64.size

def Timeouts.fields : List (Slot Timeouts) :=
  [.of "connect_ms" Config.count? fun n t => { t with connect := n },
   .of "query_ms" Config.count? fun n t => { t with query := n }]

def Timeouts.ofDraft? : Draft → Option Timeouts := Draft.record? Timeouts.fields {}

def RetryPolicy.fields : List (Slot RetryPolicy) :=
  [.of "max_attempts" (Draft.natBelow? UInt32.size) fun n p => { p with maxAttempts := n },
   .of "base_delay_ms" Config.count? fun n p => { p with baseDelay := n },
   .of "max_delay_ms" Config.count? fun n p => { p with maxDelay := n },
   .of "multiplier" Draft.double? fun x p => { p with multiplier := x }]

def RetryPolicy.ofDraft? : Draft → Option RetryPolicy := Draft.record? RetryPolicy.fields {}

namespace Config

def fields : List (Slot Config) :=
  [.of "cycle_interval_ms" count? fun n c => { c with cycleInterval := n },
   .of "cycle_deadline_ms" count? fun n c => { c with cycleDeadline := n },
   .of "workers" count? fun n c => { c with workers := n },
   .of "sessions_per_worker" count? fun n c => { c with sessionsPerWorker := n },
   .of "stagger_min_ms" count? fun n c => { c with staggerMin := n },
   .of "stagger_max_ms" count? fun n c => { c with staggerMax := n },
   .of "default_lookback_secs" count? fun n c => { c with defaultLookback := n },
   .of "result_cap" count? fun n c => { c with resultCap := n },
   .of "min_window_secs" count? fun n c => { c with minWindow := n },
   .of "batch_size" count? fun n c => { c with batchSize := n },
   .of "min_request_interval_ms" count? fun n c => { c with minRequestInterval := n },
   .of "peer_budget_ms" count? fun n c => { c with peerBudget := n },
   .of "direct" Timeouts.ofDraft? fun t c => { c with direct := t },
   .of "proxied" Timeouts.ofDraft? fun t c => { c with proxied := t },
   .of "proxy_addr" (Draft.optional? Draft.text?) fun a c => { c with proxyAddr := a },
   .of "shutdown_grace_ms" count? fun n c => { c with shutdownGrace := n },
   .of "query_retry" RetryPolicy.ofDraft? fun p c => { c with queryRetry := p },
   .of "sink_retry" RetryPolicy.ofDraft? fun p c => { c with sinkRetry := p }]

def ofText? (text : String) : Option Config :=
  (Draft.ofText? text).bind (Draft.record? fields {})

def load (text : String) : Except ConfigFault Config :=
  match ofText? text with
  | none => .error .malformed
  | some c => c.validate.map fun _ => c

def loadFile : Option String → Except ConfigFault Config
  | none => .error .unreadable
  | some text => load text

/-- As `loadFile`, but a file that is not there means the defaults. -/
def loadFileOrDefault : Option String → Except ConfigFault Config
  | none => .ok {}
  | some text => load text

end Config

end Harvest
