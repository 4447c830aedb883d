/-! What can go wrong, by where it does: on the link to a relay, in the sink, in an item that a
relay sent, or around them. Each kind of failure has its words in one place. -/

namespace Harvest

/-- What was being waited for when time ran out. -/
inductive Waited
  | connect
  | query
  | stream
deriving DecidableEq, Repr

def Waited.text : Waited → String
  | .connect => "connect"
  | .query => "query"
  | .stream => "io"

inductive LinkFault
  | connect (addr reason : String)
  | timeout (waited : Waited)
  | reset (reason : String)
  | refused (reason : String)
  | protocol (reason : String)
  | proxy (reason : String)
deriving DecidableEq, Repr

namespace LinkFault

def kind : LinkFault → String
  | connect .. => "Connect"
  | timeout _ => "Timeout"
  | reset _ => "Reset"
  | refused _ => "Refused"
  | protocol _ => "Protocol"
  | proxy _ => "Proxy"

def message : LinkFault → String
  | connect addr reason => s!"connect to {addr} failed: {reason}"
  | timeout waited => waited.text ++ " timed out"
  | reset reason => s!"connection reset: {reason}"
  | refused reason => s!"subscription closed by relay: {reason}"
  | protocol reason => s!"protocol violation: {reason}"
  | proxy reason => s!"proxy error: {reason}"

/-- Whether the same query may succeed when it is asked again. A relay that refuses, or that does
not keep to the protocol, would only do so once more. -/
def isTransient : LinkFault → Bool
  | connect .. | timeout _ | reset _ | proxy _ => true
  | refused _ | protocol _ => false

end LinkFault

/-- How an operation of the surrounding system failed, as far as a link cares. -/
inductive SystemFault
  | timedOut
  | invalidData
  | other
deriving DecidableEq, Repr

/-- A failed operation on a stream, as a failure of its link. -/
def LinkFault.ofSystem (fault : SystemFault) (message : String) : LinkFault :=
  match fault with
  | .timedOut => .timeout .stream
  | .invalidData => .protocol message
  | .other => .reset message

inductive SinkFault
  | write (reason : String)
  | closed
deriving DecidableEq, Repr

namespace SinkFault

def kind : SinkFault → String
  | write _ => "Write"
  | closed => "Closed"

def message : SinkFault → String
  | write reason => s!"write failed: {reason}"
  | closed => "sink closed"

/-- A closed sink stays closed; any other failure may pass. -/
def isTransient : SinkFault → Bool
  | write _ => true
  | closed => false

end SinkFault

inductive Failure
  | config (reason : String)
  | directory (reason : String)
  | relayNotFound (addr : String)
  | storage (reason : String)
  | database (reason : String)
  | serialization (reason : String)
  | transport (fault : LinkFault)
  | sink (fault : SinkFault)
  | stream (reason : String)
  | invalidOperation (reason : String)
deriving DecidableEq, Repr

namespace Failure

def kind : Failure → String
  | config _ => "Config"
  | directory _ => "Directory"
  | relayNotFound _ => "RelayNotFound"
  | storage _ => "Storage"
  | database _ => "Database"
  | serialization _ => "Serialization"
  | transport _ => "Transport"
  | sink _ => "Sink"
  | stream _ => "Io"
  | invalidOperation _ => "InvalidOperation"

def message : Failure → String
  | config reason => s!"Configuration error: {reason}"
  | directory reason => s!"Relay directory error: {reason}"
  | relayNotFound addr => s!"Relay not found: {addr}"
  | storage reason => s!"Storage error: {reason}"
  | database reason => s!"Database error: {reason}"
  | serialization reason => s!"Serialization error: {reason}"
  | transport fault => "Transport error: " ++ fault.message
  | sink fault => "Sink error: " ++ fault.message
  | stream reason => s!"IO error: {reason}"
  | invalidOperation reason => s!"Invalid operation: {reason}"

/-- A failure met by a sink is a failed write. -/
def toSink (f : Failure) : SinkFault := .write f.message

end Failure

end Harvest
