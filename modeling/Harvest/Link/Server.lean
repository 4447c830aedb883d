import Harvest.Link
import Harvest.Link.Socks
import Harvest.Relay
import Harvest.Text.Hex

/-! A relay that follows a script, at the other end of a stream, perhaps behind a proxy. Each
request is answered with the next reply of the script, whatever it asks for; when the script is at
its end the relay is silent. -/

namespace Harvest

/-- A part of a scripted reply. -/
inductive Serving
  | bytes (bytes : List UInt8)
  /-- The relay closes its side and says no more. -/
  | close

/-- The part of a proxy: what it says to the greeting and, if it goes on, to the request. -/
structure ProxyScript where
  choice : List UInt8
  reply : Option (List UInt8)

structure Server where
  replies : List (List Serving)
  proxy : Option ProxyScript := none
  refuses : Bool := false

inductive DialFault
  /-- The surrounding system refused, in words of its own. -/
  | system (fault : LinkFault)
  | link (fault : LinkFault)

def DialFault.fault : DialFault → LinkFault
  | system fault => fault
  | link fault => fault

/-- A conversation with a server: the connection, what is left of the script, and what the server
has heard, the latest first. -/
structure Conversation where
  link : Link := {}
  replies : List (List Serving)
  heard : List String := []

namespace Server

def heardBytes (bytes : List UInt8) : String := String.ofList (Text.Hex.encode bytes)

/-- Opens a tunnel through a scripted proxy: the bytes after the handshake, and what the proxy has
heard, the latest first. A proxy that waits for more than it is told lets the time run out. -/
def tunnel (p : ProxyScript) (a : Address) : Except LinkFault Socks.Chunks × List String :=
  let hi := heardBytes Socks.greeting
  let ask := heardBytes (Socks.request a)
  if !Socks.hostFits a then (.error (.proxy Socks.Fault.hostTooLong.message), [])
  else
    match Socks.readChoice [p.choice] with
    | .failed fault _ => (.error (.proxy fault.message), [hi])
    | .short =>
      (.error (if p.reply.isSome then .timeout .connect else .reset "early eof"), [hi])
    | .done _ rest =>
      match p.reply with
      | none => (.error (.reset "early eof"), [hi])
      | some reply =>
        match Socks.readReply (rest ++ [reply]) with
        | .failed fault _ => (.error (.proxy fault.message), [ask, hi])
        | .short => (.error (.timeout .connect), [ask, hi])
        | .done _ rest => (.ok rest, [ask, hi])

/-- Dials the server as the relay at `addr`. Its own address is none. -/
def dial (s : Server) (route : Route) (addr : Option String) (proxyKnown : Bool) :
    Except DialFault Conversation × List String :=
  let start : Conversation := { replies := s.replies }
  match route with
  | .direct =>
    if s.refuses ∨ addr.isSome then (.error (.system (.connect (addr.getD "") "")), [])
    else (.ok start, [])
  | .proxied =>
    if !proxyKnown then (.error (.link (.proxy "no proxy configured")), [])
    else
      match Address.ofRelay (addr.getD "") with
      | .error fault => (.error (.link fault), [])
      | .ok a =>
        if s.refuses then (.error (.system (.proxy "")), [])
        else
          match s.proxy with
          | none => (.error (.link (.timeout .connect)), [heardBytes Socks.greeting])
          | some p =>
            match tunnel p a with
            | (.error fault, heard) => (.error (.link fault), heard)
            | (.ok rest, heard) =>
              (.ok { start with link := start.link.receive rest.flatten, heard }, heard)

end Server

namespace Conversation

def hear (c : Conversation) (f : ClientFrame) : Conversation :=
  { c with heard := f.encode :: c.heard }

def serve (c : Conversation) : Conversation :=
  match c.replies with
  | [] => c
  | reply :: rest =>
    let link := reply.foldl (fun link part =>
      match part with
      | .bytes bytes => link.receive bytes
      | .close => link.hangUp) c.link
    { c with link, replies := rest }

/-- Asks and reads the reply. Silence lasts until the time is over. -/
def query (c : Conversation) (q : WindowQuery) : Conversation × Except LinkFault Reply :=
  match c.link.ask q with
  | .error fault => (c, .error fault)
  | .ok (link, sub, frame) =>
    let c := ({ c with link }.hear frame).serve
    match c.link.collect sub with
    | (link, .reply reply none) => ({ c with link }, .ok reply)
    | (link, .reply reply (some farewell)) => ({ c with link }.hear farewell, .ok reply)
    | (link, .failed fault) => ({ c with link }, .error fault)
    | (link, .waiting _) =>
      let (link, fault) := link.expire
      ({ c with link }, .error fault)

def close (c : Conversation) : Conversation := { c with link := c.link.close }

end Conversation

end Harvest
