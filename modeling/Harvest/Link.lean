import Harvest.Link.Reply

/-! A connection to a relay: lines that have come in, and whether it can still be used. A query is
sent under a name that was not used before; its reply is read from the lines that follow. A
connection that has timed out is not used again. -/

namespace Harvest

structure Link where
  reader : LineReader := {}
  /-- Lines that have come in and were not looked at. -/
  lines : List Line := []
  /-- The relay has closed its side. -/
  hungUp : Bool := false
  /-- A line was broken: the stream looks ended once. -/
  halted : Bool := false
  asked : Nat := 0
  usable : Bool := true

namespace Link

/-- Bytes come in. After the end of the stream none do. -/
def receive (l : Link) (bytes : List UInt8) : Link :=
  if l.hungUp then l
  else
    let (reader, lines) := l.reader.feed bytes
    { l with reader, lines := l.lines ++ lines }

def hangUp (l : Link) : Link :=
  if l.hungUp then l
  else { l with hungUp := true, reader := {}, lines := l.lines ++ l.reader.flush }

def subName (n : Nat) : String := "rs" ++ toString n

def closedFault : LinkFault := .reset "connection closed by relay"

def ask (l : Link) (q : WindowQuery) : Except LinkFault (Link × String × ClientFrame) :=
  if l.usable then
    let sub := subName (l.asked + 1)
    .ok ({ l with asked := l.asked + 1 }, sub, .req sub q.filter)
  else .error closedFault

inductive Outcome
  /-- The reply is there; the frame, if any, says that it is not needed further. -/
  | reply (reply : Reply) (farewell : Option ClientFrame)
  | failed (fault : LinkFault)
  /-- Neither the end of the reply nor the end of the stream is there; this much is. -/
  | waiting (soFar : Reply)

/-- Reads the reply to the query named `sub`. An ended stream ends the reply too. -/
def collect (l : Link) (sub : String) : Link × Outcome :=
  if l.halted then ({ l with halted := false, usable := false }, .reply {} none)
  else
    let (reply, ending, rest) := Reply.ofLines sub l.lines
    let l := { l with lines := rest }
    match ending with
    | .complete => (l, .reply reply (some (.close sub)))
    | .refused reason => (l, .failed (.refused reason))
    | .broken fault => ({ l with halted := true }, .failed (.reset fault.message))
    | .ranOut =>
      if l.hungUp then ({ l with usable := false }, .reply reply none) else (l, .waiting reply)

/-- Gives a query up because the time is over. -/
def expire (l : Link) : Link × LinkFault := ({ l with usable := false }, .timeout .query)

def close (l : Link) : Link := { l with usable := false }

end Link

end Harvest
