import Harvest.Cycle

/-! The coordinator runs cycles, one at a time, and keeps what is to last from one to the next. Once
a request to shut down was noted it stops for good. -/

namespace Harvest

structure Coordinator where
  config : Config
  directory : Directory
  watermarks : Watermarks
  world : World
  refused : List Nat := []
  opened : Nat := 0
  /-- What chance gives for a cycle that starts at an instant, a worker and a place in its shard. -/
  draw : Nat → Nat → Nat → Nat := fun _ _ _ => 0
  state : CycleState := .idle
  /-- Milliseconds since the coordinator was made. -/
  clock : Nat := 0
  shutdownAt : Option Nat := none

/-- What a sink, a relay or a watermark can see of a run, and what it came to. -/
structure Coordinator.Ran (α : Type) where
  coordinator : Coordinator
  notices : List Notice
  result : α

namespace Coordinator

def ofConfig (config : Config) (directory : Directory) (watermarks : Watermarks) (world : World)
    (refused : List Nat) : Except Failure Coordinator :=
  match config.fault? with
  | some fault => .error fault.toFailure
  | none => .ok { config, directory, watermarks, world, refused }

def describe (c : Coordinator) : String :=
  let name := match c.state with
    | .idle => "Idle"
    | .running => "Running"
    | .completed => "Completed"
    | .incomplete => "Partial"
    | .stopping => "Stopping"
    | .stopped => "Stopped"
  "SyncCoordinator \x7b state: " ++ name ++ ", .. \x7d"

/-- Requests a shutdown at an instant; an earlier request stays. -/
def shutdownAfter (c : Coordinator) (instant : Nat) : Coordinator :=
  { c with shutdownAt := some ((c.shutdownAt.map (min instant)).getD instant) }

/-- When the sessions of a cycle that starts now are asked to stop. They are cancelled at the
deadline, and when the grace after a request to shut down is over. What is due at the very instant of
the cancellation may come before it or after it; here it comes after it. -/
def control (c : Coordinator) : Control :=
  let deadline := c.clock + c.config.cycleDeadline
  { shutdownAt := c.shutdownAt
    cancelAt := some <|
      match c.shutdownAt with
      | some s => min deadline (max s c.clock + c.config.shutdownGrace)
      | none => deadline }

def pause (c : Coordinator) (worker place : Nat) : Nat :=
  let spread := c.config.staggerMax - c.config.staggerMin
  c.config.staggerMin + c.draw c.clock worker place % (spread + 1)

/-- How a cycle has ended, by the clock at its end. A cycle that ends at the very instant of its
deadline may be in time or late; here it is late. -/
def conclude (c : Coordinator) (l : Ledger) (started expected : Nat) : CycleState :=
  if l.stopping then .stopped
  else if started + c.config.cycleDeadline ≤ c.clock ∨ l.sessions.length < expected then .incomplete
  else .completed

def execute (c : Coordinator) (wall : UInt64) (jobs : List Job) : Ran CycleReport :=
  let control := c.control
  let (begun, refused) := Dispatch.begin_ jobs c.config.workers c.config.sessionsPerWorker c.pause
    c.refused control wall c.clock c.world
  let ledger := refused.foldl (fun l r => l.noteAt control c.clock r) { watermarks := c.watermarks }
  let (d, ledger) := begun.run (Ledger.noteAt control) ledger
  let ledger := ledger.heed control d.clock
  let after :=
    { c with
      clock := d.clock, world := d.world, watermarks := ledger.watermarks
      opened := c.opened + begun.handles.length }
  let state := after.conclude ledger c.clock jobs.length
  { coordinator := { after with state }
    notices := (.entered state :: ledger.notices).reverse
    result :=
      { startedAt := wall
        cycleEnd := ((jobs.head?.map (·.target.upto)).getD wall.toNat)
        state, sessions := ledger.sessions, committed := ledger.committed
        elapsed := d.clock - c.clock } }

def runCycle (c : Coordinator) (wall : UInt64) : Ran (Except Failure CycleReport) :=
  match c.state.refusal? with
  | some fault => { coordinator := c, notices := [], result := .error fault }
  | none =>
    match plan c.config c.directory c.watermarks wall with
    | .error fault =>
      { coordinator := c, notices := [.entered .running, .entered .idle], result := .error fault }
    | .ok jobs =>
      let ran := c.execute wall jobs
      let state := ran.result.state
      let told := .entered .running :: .started jobs.length :: ran.notices ++ [.finished state]
      if state = .stopped then
        { coordinator := ran.coordinator, notices := told, result := .ok ran.result }
      else
        { coordinator := { ran.coordinator with state := .idle }
          notices := told ++ [.entered .idle], result := .ok ran.result }

/-- Runs a cycle, and asks for another one while it runs. -/
def runTwice (c : Coordinator) (wall : UInt64) :
    Ran (Except Failure CycleReport × Except Failure CycleReport) :=
  let second := (match c.state with | .idle => CycleState.running | state => state).refusal?
  let ran := c.runCycle wall
  { ran with
    result := (ran.result, match second with | some fault => .error fault | none => ran.result) }

def stop (c : Coordinator) : Ran Unit :=
  { coordinator := { c with state := .stopped }
    notices := if c.state = .stopped then [] else [.entered .stopped], result := () }

/-- Lets the clock show at least an instant. -/
def waitUntil (c : Coordinator) (instant : Nat) : Coordinator :=
  { c with clock := max c.clock instant }

/-- Runs cycles, the next one an interval after the start of the one before or as soon as that one
has ended, until the shutdown that is requested at `instant`. A cycle that cannot be planned is
told of and left out. There is no end, and no answer, if the clock does not move from one cycle to
the next. -/
def runUntil (c : Coordinator) (instant : Nat) (wall : UInt64) : Option (Ran Unit) :=
  if instant ≤ c.clock then some c.stop
  else
    let ran := c.runCycle wall
    let told :=
      match ran.result with
      | .error fault => ran.notices ++ [.failed fault.message]
      | .ok _ => ran.notices
    if ran.coordinator.state = .stopped ∧ ran.result.isOk then
      some { coordinator := ran.coordinator, notices := told, result := () }
    else
      let next := ran.coordinator.waitUntil (min instant (c.clock + c.config.cycleInterval))
      if _h : next.clock ≤ c.clock then none
      else
        (next.runUntil instant wall).map fun rest => { rest with notices := told ++ rest.notices }
termination_by instant - c.clock
decreasing_by exact Nat.sub_lt_sub_left (by omega) (Nat.lt_of_not_le _h)

def run (c : Coordinator) (wall : UInt64) : Option (Ran Unit) :=
  match c.shutdownAt with
  | some instant => c.runUntil instant wall
  | none => none

end Coordinator

end Harvest
