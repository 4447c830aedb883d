import Harvest.Frame
import Harvest.Link.Line
import Harvest.Window

/-! What a relay says to one query, put together from the lines of its stream. Frames under other
names, and notices, are passed over; a line that is no frame is counted. -/

namespace Harvest

structure WindowQuery where
  window : Window
  limit : Nat
deriving DecidableEq, Repr

def WindowQuery.filter (q : WindowQuery) : Filter :=
  { since := UInt64.ofNat q.window.since, upto := UInt64.ofNat q.window.upto
    limit := UInt64.ofNat q.limit }

structure Reply where
  items : List Json := []
  /-- Frames that could not be read. -/
  garbled : Nat := 0
  exhausted : Bool := false
deriving DecidableEq, Inhabited

namespace Reply

/-- What the relay spent its cap on, readable or not. -/
def received (r : Reply) : Nat := r.items.length + r.garbled

end Reply

inductive Heard
  | item (payload : Json)
  | garbled
  /-- Something that is not for this query. -/
  | other
  | complete
  | refused (reason : String)
deriving DecidableEq

def Heard.ofText (sub text : String) : Heard :=
  match RelayFrame.decode text with
  | .ok (.event s payload) => if s = sub then .item payload else .other
  | .ok (.eose s) => if s = sub then .complete else .other
  | .ok (.closed s reason) => if s = sub then .refused reason else .other
  | .ok (.notice _) => .other
  | .error _ => .garbled

inductive Ending
  | complete
  | refused (reason : String)
  | broken (fault : LineFault)
  | ranOut
deriving DecidableEq

/-- Reads the reply to the query named `sub`: what was gathered, how it ended, and the lines after
its end. -/
def Reply.gather (sub : String) (soFar : Reply) : List Line → Reply × Ending × List Line
  | [] => (soFar, .ranOut, [])
  | .broken fault :: rest => (soFar, .broken fault, rest)
  | .text text :: rest =>
    match Heard.ofText sub text with
    | .item payload => gather sub { soFar with items := payload :: soFar.items } rest
    | .garbled => gather sub { soFar with garbled := soFar.garbled + 1 } rest
    | .other => gather sub soFar rest
    | .complete => ({ soFar with exhausted := true }, .complete, rest)
    | .refused reason => (soFar, .refused reason, rest)

/-- The reply at the start of `lines`, its items in the order in which they came. -/
def Reply.ofLines (sub : String) (lines : List Line) : Reply × Ending × List Line :=
  let (reply, ending, rest) := gather sub {} lines
  ({ reply with items := reply.items.reverse }, ending, rest)

end Harvest
