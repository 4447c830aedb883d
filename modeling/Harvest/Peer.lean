import Harvest.Failure
import Harvest.Memory.Relay
import Harvest.Relay

/-! What stands at a relay's address: a simulated relay, a script of what happens at each connection
and each query, or a relay that serves lines. A call to a peer fixes at once when it will return
and with what. -/

namespace Harvest

/-- A call that returns after `delay` milliseconds. -/
structure Call (α : Type) where
  delay : Nat := 0
  value : α
deriving Repr

inductive Connected
  | opened
  | failed (fault : LinkFault)
  /-- The session that called is torn down. -/
  | crashed
deriving DecidableEq, Repr

/-- What happens at each connection and at each query, in turn. Where a list is used up, all goes
well and replies are empty. -/
structure Script where
  connects : List (Call Connected) := []
  queries : List (Call (Except LinkFault Reply)) := []

/-- A relay that speaks lines: it puts lines that are no frames ahead of each reply. A reply takes a
millisecond. -/
structure LineRelay where
  events : List Event
  cap : Option Nat := none
  junk : Nat := 0
  /-- It closes every subscription with this reason. -/
  refusal : Option String := none

def LineRelay.answer (r : LineRelay) (q : WindowQuery) : Except LinkFault Reply :=
  match r.refusal with
  | some reason => .error (.refused reason)
  | none =>
    let relay : MemoryRelay := { events := r.events, cap := r.cap }
    .ok { relay.answer q with garbled := r.junk }

inductive Peer
  | memory (relay : MemoryRelay)
  | scripted (script : Script)
  | lines (relay : LineRelay)
  | unreachable (fault : LinkFault)

namespace Peer

/-- A call that takes longer than `limit` fails when the time is over. One that returns just then
succeeds. -/
def within (limit : Nat) (call : Call (Except LinkFault Reply)) : Call (Except LinkFault Reply) :=
  if limit < call.delay then { delay := limit, value := .error (.timeout .query) } else call

def connect (addr : RelayId) : Peer → Peer × Call Connected
  | memory r =>
    match r.connectFailures with
    | n + 1 =>
      (memory { r with connectFailures := n },
        { value := .failed (.connect addr "connection refused") })
    | 0 => (memory r, { value := .opened })
  | scripted s =>
    match s.connects with
    | [] => (scripted s, { value := .opened })
    | call :: rest => (scripted { s with connects := rest }, call)
  | lines r => (lines r, { value := .opened })
  | unreachable fault => (unreachable fault, { value := .failed fault })

def query (q : WindowQuery) (timeout : Nat) : Peer → Peer × Call (Except LinkFault Reply)
  | memory r =>
    match r.queryFailures with
    | n + 1 =>
      (memory { r with queryFailures := n }, { value := .error (.reset "injected reset") })
    | 0 =>
      if r.hangs then (memory r, { delay := timeout, value := .error (.timeout .query) })
      else (memory r, within timeout { delay := r.latency, value := .ok (r.answer q) })
  | scripted s =>
    match s.queries with
    | [] => (scripted s, { value := .ok { exhausted := true } })
    | call :: rest => (scripted { s with queries := rest }, within timeout call)
  | lines r => (lines r, within timeout { delay := 1, value := r.answer q })
  | unreachable fault => (unreachable fault, { value := .error fault })

def isCounted : Peer → Bool
  | memory _ => true
  | _ => false

end Peer

end Harvest
