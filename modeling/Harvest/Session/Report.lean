import Harvest.Config
import Harvest.Window

/-! What a session is to do, and what it reports at its end. -/

namespace Harvest

/-- A relay to harvest, and the range that is to be covered. -/
structure Job where
  relay : Relay
  target : Window
  settings : Settings

inductive AbandonReason
  | budgetExceeded
  /-- A query failed for good, or too often. -/
  | transport (fault : LinkFault)
  | shutdown
  | cancelled
  /-- The session was stopped before it began. -/
  | notStarted
deriving DecidableEq, Repr

def AbandonReason.kind : AbandonReason → String
  | budgetExceeded => "BudgetExceeded"
  | transport _ => "Transport"
  | shutdown => "Shutdown"
  | cancelled => "Cancelled"
  | notStarted => "NotStarted"

def AbandonReason.text : AbandonReason → String
  | budgetExceeded => "budget exceeded"
  | transport fault => "transport: " ++ fault.message
  | shutdown => "shutdown"
  | cancelled => "cancelled"
  | notStarted => "not started"

inductive Outcome
  /-- Every window had its reply and every batch was taken. -/
  | drained
  | abandoned (reason : AbandonReason)
  | sinkFailed (fault : SinkFault)
deriving DecidableEq, Repr

namespace Outcome

def isDrained : Outcome → Bool
  | drained => true
  | _ => false

def reason? : Outcome → Option AbandonReason
  | abandoned reason => some reason
  | _ => none

def label : Outcome → String
  | drained => "drained"
  | abandoned _ => "abandoned"
  | sinkFailed _ => "sink-failed"

def text : Outcome → String
  | drained => "drained"
  | abandoned reason => "abandoned (" ++ reason.text ++ ")"
  | sinkFailed fault => "sink failed: " ++ fault.message

end Outcome

/-- What a session has counted. Connects, queries and retries are counters of 32 bits, which hold
these numbers as long as each of them is less than `2 ^ 32`. -/
structure Stats where
  connects : Nat := 0
  queries : Nat := 0
  retries : Nat := 0
  resolved : Nat := 0
  /-- Windows that were owed when the session was abandoned. -/
  abandoned : Nat := 0
  /-- Items of the replies, readable or not. -/
  received : Nat := 0
  /-- Items that were no valid events. -/
  malformed : Nat := 0
  /-- Events that the sink took, repeated ones included. -/
  delivered : Nat := 0
  stored : Nat := 0
  /-- Windows accepted under the floor. -/
  flagged : List Window := []
deriving DecidableEq, Repr

structure Report where
  relay : RelayId
  target : Window
  outcome : Outcome
  stats : Stats := {}
  /-- Milliseconds from the start of the session to its end. -/
  elapsed : Nat := 0
deriving DecidableEq, Repr

namespace Report

def notStarted (job : Job) : Report :=
  { relay := job.relay.id, target := job.target, outcome := .abandoned .notStarted }

/-- Up to where the session has shown the relay to be covered. -/
def confirmedUntil (r : Report) : Option Nat :=
  if r.outcome.isDrained then some r.target.upto else none

end Report

end Harvest
