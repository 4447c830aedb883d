import Harvest.Peer

/-! All peers by their addresses, with what is observed of them: which queries came when, and how
many connections are open. An address where no peer is refuses connections. -/

namespace Harvest

structure Asked where
  relay : RelayId
  at_ : Nat
  query : WindowQuery
deriving DecidableEq, Repr

structure Network where
  peers : List (RelayId × Peer) := []
  /-- The queries so far, the latest first. -/
  asked : List Asked := []
  attempts : Nat := 0
  live : Nat := 0
  peak : Nat := 0

namespace Network

def peer? (n : Network) (addr : RelayId) : Option Peer := n.peers.lookup addr

def putPeer (addr : RelayId) (p : Peer) : List (RelayId × Peer) → List (RelayId × Peer)
  | [] => [(addr, p)]
  | (a, q) :: rest => if a = addr then (a, p) :: rest else (a, q) :: putPeer addr p rest

/-- Puts a peer at an address, in place of the one that is there. -/
def add (n : Network) (addr : RelayId) (p : Peer) : Network :=
  { n with peers := putPeer addr p n.peers }

def connect (n : Network) (addr : RelayId) : Network × Call Connected :=
  match n.peer? addr with
  | none =>
    ({ n with attempts := n.attempts + 1 },
      { value := .failed (.connect addr "connection refused") })
  | some p =>
    let (p', call) := p.connect addr
    let counted := if p.isCounted then 1 else 0
    ({ n.add addr p' with attempts := n.attempts + counted }, call)

def query (n : Network) (addr : RelayId) (q : WindowQuery) (timeout now : Nat) :
    Network × Call (Except LinkFault Reply) :=
  let n := { n with asked := ⟨addr, now, q⟩ :: n.asked }
  match n.peer? addr with
  | none => (n, { value := .error (.reset "relay vanished") })
  | some p =>
    let (p, call) := p.query q timeout
    (n.add addr p, call)

def isCounted (n : Network) (addr : RelayId) : Bool := (n.peer? addr).any Peer.isCounted

def opened (n : Network) (addr : RelayId) : Network :=
  if n.isCounted addr then { n with live := n.live + 1, peak := max n.peak (n.live + 1) } else n

def closed (n : Network) (addr : RelayId) : Network :=
  if n.isCounted addr then { n with live := n.live - 1 } else n

end Network

/-- A connection to a relay. To close it twice is as good as to close it once. -/
structure Connection where
  relay : RelayId
  isOpen : Bool := true
deriving DecidableEq, Repr

def Connection.close (c : Connection) (n : Network) : Network × Connection :=
  if c.isOpen then (n.closed c.relay, { c with isOpen := false }) else (n, c)

end Harvest
