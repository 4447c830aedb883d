import Harvest.Address
import Harvest.CommandLine.Arguments
import Harvest.Relay

/-! The commands of the program, and how they are written. -/

namespace Harvest.CommandLine

/-- Settings of a configuration that a command puts others in place of. -/
structure CycleOptions where
  workers : Option Nat := none
  sessions : Option Nat := none
  /-- Milliseconds. -/
  interval : Option Nat := none
deriving DecidableEq, Repr

inductive Command
  | run (options : CycleOptions)
  | once (options : CycleOptions)
  | addRelay (relay : Relay)
  | listRelays
  | setEnabled (addr : RelayId) (on : Bool)
  | watermarks
  | countEvents
  | showConfig
deriving DecidableEq, Repr

structure Invocation where
  dataDir : Option String := none
  config : Option String := none
  command : Command
deriving DecidableEq, Repr

/-! ## The grammar -/

def number? (text : String) : Option Nat := Text.Numeral.natBelow? UInt64.size text.toList

def number (long : String) : Choice :=
  { long, kind := .value fun text => (number? text).isSome }

def path (long : String) (short : Option Char) : Choice :=
  { long, short, kind := .value fun text => text ≠ "" }

def shared : List Choice :=
  [{ long := "verbose", short := some 'v', kind := .count }, path "data-dir" (some 'd'),
    path "config" (some 'c'), path "log-dir" none]

def cycleChoices : List Choice := [number "workers", number "sessions", number "interval-ms"]

def relayChoices : List Choice :=
  [{ long := "proxied", kind := .flag }, number "cap", number "budget-ms", number "interval-ms",
    number "timeout-ms"]

def grammar : Grammar :=
  Grammar.everywhere shared <| .branch []
    [("run", .leaf cycleChoices 0), ("once", .leaf cycleChoices 0),
     ("relays", .branch []
       [("add", .leaf relayChoices 1), ("list", .leaf [] 0), ("disable", .leaf [] 1),
        ("enable", .leaf [] 1)]),
     ("watermarks", .leaf [] 0), ("events", .branch [] [("count", .leaf [] 0)]),
     ("config", .branch [] [("show", .leaf [] 0)])]

/-! ## From arguments to commands -/

def Given.number? (g : Given) (long : String) : Option Nat :=
  (g.value? long).bind CommandLine.number?

def Given.count? (g : Given) (long : String) : Option UInt64 := (g.number? long).map UInt64.ofNat

def Given.cycleOptions (g : Given) : CycleOptions :=
  { workers := g.number? "workers", sessions := g.number? "sessions"
    interval := g.number? "interval-ms" }

def Given.relay (g : Given) (addr : RelayId) : Relay :=
  { id := addr
    route := if g.has "proxied" then .proxied else .direct
    overrides :=
      { requestTimeout := g.count? "timeout-ms", budget := g.count? "budget-ms"
        resultCap := g.count? "cap", minInterval := g.count? "interval-ms" } }

def Given.command? (g : Given) : Option Command :=
  match g.path, g.operands with
  | ["run"], [] => some (.run g.cycleOptions)
  | ["once"], [] => some (.once g.cycleOptions)
  | ["relays", "add"], [addr] => some (.addRelay (g.relay addr))
  | ["relays", "list"], [] => some .listRelays
  | ["relays", "disable"], [addr] => some (.setEnabled addr false)
  | ["relays", "enable"], [addr] => some (.setEnabled addr true)
  | ["watermarks"], [] => some .watermarks
  | ["events", "count"], [] => some .countEvents
  | ["config", "show"], [] => some .showConfig
  | _, _ => none

def Invocation.ofArguments (args : List String) : Except Usage Invocation :=
  match read grammar {} false args with
  | .error usage => .error usage
  | .ok given =>
    match given.command? with
    | some command =>
      .ok { dataDir := given.value? "data-dir", config := given.value? "config", command }
    | none => .error .wrong

end Harvest.CommandLine
