import Harvest.Directory
import Harvest.Dispatch
import Harvest.Watermarks

/-! One cycle: every eligible relay is harvested from its watermark up to now. The watermark of a
relay moves when its session reports that the whole range is covered and that the sink has taken
every event; whatever else happens leaves it where it was, and the next cycle covers the same range
again. -/

namespace Harvest

inductive CycleState
  | idle
  | running
  | completed
  /-- The deadline came first, or a session was torn down. -/
  | incomplete
  /-- A shutdown was requested and sessions are still at work. -/
  | stopping
  | stopped
deriving DecidableEq, Repr

def CycleState.text : CycleState → String
  | idle => "IDLE"
  | running => "RUNNING"
  | completed => "COMPLETED"
  | incomplete => "PARTIAL"
  | stopping => "STOPPING"
  | stopped => "STOPPED"

def CycleState.refusal? : CycleState → Option Failure
  | .idle => none
  | .stopped | .stopping => some (.invalidOperation "coordinator is stopped")
  | state => some (.invalidOperation ("cannot start a cycle while " ++ state.text))

inductive Notice
  | entered (state : CycleState)
  | started (jobs : Nat)
  | committed (relay : RelayId) (stamp : Nat)
  | reported (relay : RelayId) (outcome : Outcome)
  | finished (state : CycleState)
  | failed (reason : String)
deriving DecidableEq, Repr

structure CycleReport where
  startedAt : UInt64
  /-- Up to where every session was to go. -/
  cycleEnd : Nat
  state : CycleState
  sessions : List Report
  /-- The watermarks that this cycle has moved, or confirmed. -/
  committed : Table RelayId Nat
  /-- Milliseconds from the start of the cycle to its end. -/
  elapsed : Nat

namespace CycleReport

def drained (r : CycleReport) : Nat := (r.sessions.filter (·.outcome.isDrained)).length

def incomplete (r : CycleReport) : List Report := r.sessions.filter (!·.outcome.isDrained)

def stored (r : CycleReport) : Nat := r.sessions.foldl (fun n s => n + s.stats.stored) 0

def session? (r : CycleReport) (relay : RelayId) : Option Report :=
  r.sessions.find? (·.relay == relay)

end CycleReport

/-! ## Planning -/

/-- The range of a relay: from its watermark, or the time to look back to if it has none, up to now.
A watermark that lies ahead of now leaves the present second. -/
def target (lookback now : Nat) (watermark : Option Nat) : Window :=
  ⟨min (watermark.getD (now - lookback)) now, now⟩

def planRelay (config : Config) (watermarks : Watermarks) (now : UInt64) (relay : Relay) :
    Except Failure Job :=
  match watermarks.get relay.id with
  | .error fault => .error fault
  | .ok watermark =>
    .ok {
      relay, target := target config.defaultLookback now.toNat watermark
      settings := config.settings relay }

def plan (config : Config) (directory : Directory) (watermarks : Watermarks) (now : UInt64) :
    Except Failure (List Job) :=
  match directory.listEligible with
  | .error fault => .error fault
  | .ok relays =>
    match config.validateRelays relays with
    | .error fault => .error fault.toFailure
    | .ok () => relays.mapM (planRelay config watermarks now)

/-! ## Taking note of reports -/

structure Ledger where
  watermarks : Watermarks
  stopping : Bool := false
  sessions : List Report := []
  committed : Table RelayId Nat := {}
  /-- What was told so far, the latest first. -/
  notices : List Notice := []

namespace Ledger

/-- Notes a request to shut down, once there is one. -/
def heed (l : Ledger) (control : Control) (now : Nat) : Ledger :=
  if control.isShutDown now ∧ l.stopping = false then
    { l with stopping := true, notices := .entered .stopping :: l.notices }
  else l

/-- Moves the watermark of a relay up to where its session has shown it to be covered. -/
def commit (l : Ledger) (r : Report) : Ledger :=
  match r.confirmedUntil with
  | none => l
  | some stamp =>
    match l.watermarks.set r.relay stamp with
    | .error _ => l
    | .ok watermarks =>
      { l with
        watermarks, committed := l.committed.set r.relay stamp
        notices := .committed r.relay stamp :: l.notices }

def note (l : Ledger) (r : Report) : Ledger :=
  let l := l.commit r
  { l with sessions := l.sessions ++ [r], notices := .reported r.relay r.outcome :: l.notices }

def noteAt (control : Control) (l : Ledger) (now : Nat) (r : Report) : Ledger :=
  (l.heed control now).note r

end Ledger

end Harvest
