import Harvest.Address
import Harvest.Link.Socks
import Harvest.Network

/-! A site: which relays there are, and how they are reached. Some listen at their addresses; all
can be asked for at the proxy, if there is one. -/

namespace Harvest

structure Host where
  addr : RelayId
  relay : LineRelay
  /-- Whether it listens at its address, so that no proxy is needed. -/
  listens : Bool := true

structure Site where
  hosts : List Host := []
  proxy : Option String := none

namespace Site

def host? (s : Site) (addr : RelayId) : Option Host := s.hosts.find? (·.addr == addr)

/-- What stands at an address that is dialled straight. -/
def straight (s : Site) (addr : RelayId) : Peer :=
  match s.host? addr with
  | some h =>
    if h.listens then .lines h.relay else .unreachable (.connect addr (Address.refusal addr))
  | none => .unreachable (.connect addr (Address.refusal addr))

/-- What the proxy says to a request for an address that the site does not have. -/
def strange (addr : RelayId) : LinkFault :=
  match Address.ofRelay addr with
  | .error fault => fault
  | .ok a =>
    if Socks.hostFits a then .proxy (Socks.Fault.connectFailed 4).message
    else .proxy Socks.Fault.hostTooLong.message

/-- What stands at an address behind the proxy that is believed to listen at `proxy`. An address
that is none is found out before the proxy is dialled. -/
def behind (s : Site) (proxy : String) (addr : RelayId) : Peer :=
  match s.host? addr, Address.ofRelay addr with
  | none, .error fault => .unreachable fault
  | host, _ =>
    if s.proxy ≠ some proxy then .unreachable (.proxy (proxy ++ ": " ++ Address.refusal proxy))
    else
      match host with
      | some h => .lines h.relay
      | none => .unreachable (strange addr)

/-- What stands at a relay's address, for an engine that knows of this proxy. -/
def peer (s : Site) (proxy : Option String) (r : Relay) : Peer :=
  match r.route, proxy with
  | .direct, _ => s.straight r.id
  | .proxied, some proxy => s.behind proxy r.id
  | .proxied, none => .unreachable (.proxy "no proxy configured")

/-- The network of some relays. -/
def network (s : Site) (proxy : Option String) (relays : List Relay) : Network :=
  relays.foldl (fun n r => n.add r.id (s.peer proxy r)) {}

end Site

end Harvest
