import Harvest.CommandLine.Command
import Harvest.CommandLine.Disk
import Harvest.CommandLine.Layout
import Harvest.Config.Reader
import Harvest.Site

/-! Carrying a command out. The command works on the store in its data directory and, for a cycle,
on the relays of a site. -/

namespace Harvest.CommandLine

structure Finish where
  code : Nat := 0
  lines : List String := []
  fault : Option String := none
deriving DecidableEq, Repr

namespace Finish

def ofLines (lines : List String) : Finish := { lines }

def failed (fault : String) : Finish := { code := 1, fault := some fault }

def ofFailure (f : Failure) : Finish := failed f.message

/-- The program was called in a wrong way, or asked what it is. -/
def ofUsage : Usage → Finish
  | .wrong => { code := 2 }
  | .help => {}
  | .version => ofLines ["relaysync 0.1.0"]

end Finish

structure Setting where
  site : Site
  home : String
  wall : UInt64
  cycle : String
  /-- Once its first cycle is over the program is interrupted. -/
  interrupted : Bool := false

/-- The configuration at a path, with what a command puts in place of its settings. -/
def loadConfig (d : Disk) (path : String) (o : CycleOptions) : Except Failure Config :=
  match Config.loadFileOrDefault (d.texts.get? path) with
  | .error fault => .error fault.toFailure
  | .ok c =>
    let c :=
      { c with
        workers := o.workers.getD c.workers
        sessionsPerWorker := o.sessions.getD c.sessionsPerWorker
        cycleInterval := o.interval.getD c.cycleInterval }
    match c.validate with
    | .error fault => .error fault.toFailure
    | .ok () => .ok c

def coordinator (setting : Setting) (s : Store) (c : Config) : Except Failure Coordinator :=
  let relays := match s.relays.list with
    | .ok relays => relays
    | .error _ => []
  Coordinator.ofConfig c (.store s.relays) { store := .table s.watermarks }
    { network := setting.site.network c.proxyAddr relays, sink := { depot := .store s.events } } []

def keep (s : Store) (c : Coordinator) : Store :=
  { s with
    events := match c.world.sink.depot with
      | .store events => events
      | .memory _ => s.events
    watermarks := match c.watermarks.store with
      | .table marks => marks
      | .memory _ => s.watermarks }

/-- Carries out a command on a store. The program that runs cycles does so until it is interrupted;
without that there is no answer. -/
def perform (setting : Setting) (d : Disk) (config : String) (s : Store) :
    Command → Option (Store × Finish)
  | .run o =>
    match (loadConfig d config o).bind (coordinator setting s) with
    | .error fault => some (s, .ofFailure fault)
    | .ok c =>
      if setting.interrupted then
        some (keep s (c.runCycle setting.wall).coordinator, .ofLines ["Stopped."])
      else none
  | .once o =>
    match (loadConfig d config o).bind (coordinator setting s) with
    | .error fault => some (s, .ofFailure fault)
    | .ok c =>
      let ran := c.runCycle setting.wall
      let finish :=
        match ran.result with
        | .error fault => .ofFailure fault
        | .ok report => .ofLines (reportLines setting.cycle report)
      some (keep s ran.coordinator, finish)
  | .addRelay r => some ({ s with relays := s.relays.save r }, .ofLines ["Added relay " ++ r.id])
  | .listRelays =>
    match s.relays.list with
    | .error fault => some (s, .ofFailure fault)
    | .ok relays => some (s, .ofLines (relayLines relays))
  | .setEnabled addr on =>
    match s.relays.setEnabled addr on with
    | .error fault => some (s, .ofFailure fault)
    | .ok relays =>
      let done := if on then "Enabled" else "Disabled"
      some ({ s with relays }, .ofLines [done ++ " relay " ++ addr])
  | .watermarks => some (s, .ofLines (watermarkLines setting.wall.toNat s.watermarks.list))
  | .countEvents => some (s, .ofLines [toString s.events.count])
  | .showConfig => some (s, .ofLines [])

def execute (setting : Setting) (d : Disk) (args : List String) : Option (Disk × Finish) :=
  match Invocation.ofArguments args with
  | .error usage => some (d, .ofUsage usage)
  | .ok call =>
    let paths := call.paths setting.home
    match call.command with
    | .showConfig =>
      match loadConfig d paths.config {} with
      | .error fault => some (d, .ofFailure fault)
      | .ok c => some (d, .ofLines [c.toJson.pretty])
    | command =>
      match d.store? paths.store with
      | none => some (d, .failed ("Failed to open storage in " ++ paths.dir))
      | some s =>
        (perform setting d paths.config s command).map fun (s, finish) =>
          (d.putStore paths.store s, finish)

end Harvest.CommandLine
