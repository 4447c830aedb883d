import Harvest.Pacer
import Harvest.Session.Report
import Harvest.Window.Splitter
import Harvest.World

/-! One session: it covers a range of one relay. It takes a window, waits for the relay's interval,
asks, hands valid events to the sink in batches and tells the splitter how full the reply was. It
ends drained only when every window had its reply and the sink took every batch.

A session is a state that waits for an instant. `Session.step` is its next move, at that instant or
when it is cut off before: by a cancellation, or because its time is over. A request to shut down
does not cut it off; it is looked at where a window is taken. -/

namespace Harvest

/-- The instants at which sessions are asked to stop. -/
structure Control where
  /-- From then on no window is taken. -/
  shutdownAt : Option Nat := none
  /-- From then on nothing is done any more. -/
  cancelAt : Option Nat := none
deriving DecidableEq

namespace Control

def isShutDown (c : Control) (now : Nat) : Bool := c.shutdownAt.any (· ≤ now)

/-- From then on no session begins. -/
def stopAt? (c : Control) : Option Nat :=
  match c.shutdownAt, c.cancelAt with
  | some s, some t => some (min s t)
  | some s, none => some s
  | none, cancelAt => cancelAt

end Control

/-- What to go on with when a batch was taken. -/
inductive After
  /-- The items of a reply that were not looked at yet, with what is known of the reply. -/
  | reply (window : Window) (received : Nat) (oldest : Option Nat) (rest : List Json)
  /-- Nothing: it was the last batch. -/
  | finish
deriving DecidableEq

/-- What a session waits for, and the instant `due` at which it goes on. A stage that waits for a
call has what the call comes to. -/
inductive Stage
  | ready (due : Nat)
  | connecting (window : Window) (retries due : Nat) (result : Connected)
  | pacing (window : Window) (retries due : Nat)
  | querying (window : Window) (retries due : Nat) (result : Except LinkFault Reply)
  | resting (window : Window) (retries due : Nat)
  | storing (batch : Batch) (retries : Nat) (after : After) (due : Nat)
      (refusal : Option SinkFault)
  | storeResting (batch : Batch) (retries : Nat) (after : After) (due : Nat)
  /-- The sink, for the batch that is left of an abandoned session. It `heeds` the batch unless it
  refuses it or is too slow. -/
  | salvaging (batch : Batch) (reason : AbandonReason) (due : Nat) (heeds : Bool)
  | ended (outcome : Outcome) (at_ : Nat)
  /-- The session was torn down and reports nothing. -/
  | crashed (at_ : Nat)

def Stage.due? : Stage → Option Nat
  | ready due | connecting _ _ due _ | pacing _ _ due | querying _ _ due _ | resting _ _ due
  | storing _ _ _ due _ | storeResting _ _ _ due | salvaging _ _ due _ => some due
  | ended .. | crashed _ => none

structure Session where
  job : Job
  started : Nat
  wall : UInt64
  splitter : Splitter
  pacer : Pacer
  connected : Bool := false
  /-- Valid events that were not handed over yet. -/
  pending : List Event := []
  stats : Stats := {}
  stage : Stage

namespace Session

def settings (s : Session) : Settings := s.job.settings

def relay (s : Session) : RelayId := s.job.relay.id

def queryFor (s : Session) (w : Window) : WindowQuery :=
  { window := w, limit := s.settings.resultCap }

def budgetEnd (s : Session) : Nat := s.started + s.settings.budget

def isOver (s : Session) : Bool := s.stage.due?.isNone

def start (job : Job) (wall : UInt64) (now : Nat) : Session where
  job
  started := now
  wall
  splitter := .ofRange job.target job.settings.resultCap job.settings.minWindow
  pacer := { relay := job.relay.id, minInterval := job.settings.minInterval }
  stage := .ready now

/-! ## Ending -/

def disconnect (s : Session) (world : World) : World × Session :=
  if s.connected then (world.closed s.relay, { s with connected := false }) else (world, s)

def close (s : Session) (outcome : Outcome) (now : Nat) (world : World) : World × Session :=
  let (world, s) := s.disconnect world
  (world, { s with stage := .ended outcome now })

def batch (s : Session) : Batch := { relay := s.relay, observedAt := s.wall, events := s.pending }

/-- Hands what is pending to the sink once, and gives it as long as a query. -/
def salvage (s : Session) (reason : AbandonReason) (now : Nat) (world : World) :
    World × Session :=
  let (world, step) := world.hand s.batch now
  let late := s.settings.queryTimeout < step.delay
  (world,
    { s with
      pending := []
      stage := .salvaging s.batch reason (now + min step.delay s.settings.queryTimeout)
        (!late && step.refusal.isNone) })

/-- Stops before the range is covered. What is still owed is counted. What was read is worth
keeping: unless the session was cancelled, the sink is asked once to take it. -/
def abandon (s : Session) (reason : AbandonReason) (now : Nat) (world : World) :
    World × Session :=
  let (dropped, splitter) := s.splitter.abandon
  let s := { s with splitter, stats := { s.stats with abandoned := s.stats.abandoned + dropped } }
  if reason = .cancelled ∨ s.pending = [] then s.close (.abandoned reason) now world
  else s.salvage reason now world

/-- Counts the window in hand as owed and stops. -/
def giveUp (s : Session) (reason : AbandonReason) (now : Nat) (world : World) : World × Session :=
  { s with stats := { s.stats with abandoned := s.stats.abandoned + 1 } }.abandon reason now world

/-! ## Asking -/

def pace (s : Session) (w : Window) (retries now : Nat) : Session :=
  { s with stage := .pacing w retries (s.pacer.due now) }

/-- Begins an attempt to ask for a window, over a new connection if there is none. -/
def attempt (s : Session) (w : Window) (retries now : Nat) (world : World) : World × Session :=
  if s.connected then (world, s.pace w retries now)
  else
    let (world, call) := world.connect s.relay
    (world,
      { s with stats := { s.stats with connects := s.stats.connects + 1 }
               stage := .connecting w retries (now + call.delay) call.value })

def ask (s : Session) (w : Window) (retries now : Nat) (world : World) : World × Session :=
  let (world, call) := world.query s.relay (s.queryFor w) s.settings.queryTimeout now
  (world,
    { s with pacer := s.pacer.stamp now
             stats := { s.stats with queries := s.stats.queries + 1 }
             stage := .querying w retries (now + call.delay) call.value })

/-- An attempt has failed: its connection is not used again. -/
def fail (s : Session) (w : Window) (retries : Nat) (fault : LinkFault) (now : Nat)
    (world : World) : World × Session :=
  let (world, s) := s.disconnect world
  match s.settings.queryRetry.next? retries fault.isTransient with
  | some n => (world, { s with stage := .resting w n (now + s.settings.queryRetry.delayFor n) })
  | none =>
    { s with stats := { s.stats with retries := s.stats.retries + retries } }.giveUp
      (.transport fault) now world

/-! ## Taking windows and items -/

def store (s : Session) (b : Batch) (retries : Nat) (after : After) (now : Nat) (world : World) :
    World × Session :=
  let (world, step) := world.hand b now
  (world, { s with stage := .storing b retries after (now + step.delay) step.refusal })

def flush (s : Session) (after : After) (now : Nat) (world : World) : World × Session :=
  { s with pending := [] }.store s.batch 0 after now world

/-- Takes the next window. When none is owed the last batch is handed over. -/
def advance (s : Session) (shutdown : Bool) (now : Nat) (world : World) : World × Session :=
  match s.splitter.next with
  | some (w, splitter) =>
    let s := { s with splitter }
    if shutdown then s.giveUp .shutdown now world else s.attempt w 0 now world
  | none => if s.pending = [] then s.close .drained now world else s.flush .finish now world

/-- The older of the oldest stamp so far and that of an event, if it lies in the window. -/
def older (w : Window) (oldest : Option Nat) (e : Event) : Option Nat :=
  if w.contains e.stamp then some ((oldest.map (min · e.stamp)).getD e.stamp) else oldest

/-- Looks at the items of a reply until a batch is full. Then the reply goes to the splitter. -/
def absorb (s : Session) (w : Window) (received : Nat) (oldest : Option Nat) (shutdown : Bool)
    (now : Nat) (world : World) : List Json → World × Session
  | [] =>
    let splitter := (s.splitter.resolve w received oldest).2
    { s with splitter, stats := { s.stats with resolved := splitter.resolved } }.advance shutdown
      now world
  | item :: rest =>
    match Event.parse item with
    | .error _ =>
      { s with stats := { s.stats with malformed := s.stats.malformed + 1 } }.absorb w received
        oldest shutdown now world rest
    | .ok e =>
      let oldest := older w oldest e
      let s := { s with pending := s.pending ++ [e] }
      if s.settings.batchSize ≤ s.pending.length then
        s.flush (.reply w received oldest rest) now world
      else s.absorb w received oldest shutdown now world rest

def receive (s : Session) (w : Window) (retries : Nat) (reply : Reply) (shutdown : Bool)
    (now : Nat) (world : World) : World × Session :=
  let stats :=
    { s.stats with
      retries := s.stats.retries + retries
      received := s.stats.received + reply.received
      malformed := s.stats.malformed + reply.garbled }
  { s with stats }.absorb w reply.received none shutdown now world reply.items

/-- The sink took a batch, `count` of its events being new. -/
def noteStored (s : Session) (b : Batch) (count : Nat) : Session :=
  { s with stats := { s.stats with delivered := s.stats.delivered + b.size
                                   stored := s.stats.stored + count } }

def settle (s : Session) (b : Batch) (retries : Nat) (after : After) (refusal : Option SinkFault)
    (shutdown : Bool) (now : Nat) (world : World) : World × Session :=
  match world.take b refusal with
  | (world, .ok count) =>
    let s := s.noteStored b count
    match after with
    | .reply w received oldest rest => s.absorb w received oldest shutdown now world rest
    | .finish => s.close .drained now world
  | (world, .error fault) =>
    match s.settings.sinkRetry.next? retries fault.isTransient with
    | some n =>
      (world, { s with stage := .storeResting b n after (now + s.settings.sinkRetry.delayFor n) })
    | none => s.close (.sinkFailed fault) now world

/-- The sink answers about what was left of an abandoned session. -/
def settleSalvage (s : Session) (b : Batch) (reason : AbandonReason) (heeds : Bool) (now : Nat)
    (world : World) : World × Session :=
  if heeds then
    match world.take b none with
    | (world, .ok count) => (s.noteStored b count).close (.abandoned reason) now world
    | (world, .error _) => s.close (.abandoned reason) now world
  else s.close (.abandoned reason) now world

/-! ## Moving on -/

def proceed (s : Session) (shutdown : Bool) (world : World) : World × Session :=
  match s.stage with
  | .ready now => s.advance shutdown now world
  | .connecting w retries now result =>
    match result with
    | .opened => (world.opened s.relay, { s with connected := true }.pace w retries now)
    | .failed fault => s.fail w retries fault now world
    | .crashed => (world, { s with stage := .crashed now })
  | .pacing w retries now => s.ask w retries now world
  | .querying w retries now result =>
    match result with
    | .ok reply => s.receive w retries reply shutdown now world
    | .error fault => s.fail w retries fault now world
  | .resting w retries now => s.attempt w retries now world
  | .storing b retries after now refusal => s.settle b retries after refusal shutdown now world
  | .storeResting b retries after now => s.store b retries after now world
  | .salvaging b reason now heeds => s.settleSalvage b reason heeds now world
  | .ended .. | .crashed _ => (world, s)

/-- Cuts the session off where it stands. -/
def interrupt (s : Session) (reason : AbandonReason) (now : Nat) (world : World) :
    World × Session :=
  match s.stage with
  | .ended .. | .crashed _ => (world, s)
  | .salvaging _ reason _ _ => s.close (.abandoned reason) now world
  | _ => s.abandon reason now world

/-- The instant at which the session will be cut off if it is not over by then, and why. When both
fall on one instant the cancellation counts. A session that was abandoned is only cancelled. -/
def cutOff? (s : Session) (c : Control) : Option (Nat × AbandonReason) :=
  match s.stage with
  | .ended .. | .crashed _ => none
  | .salvaging .. => c.cancelAt.map (·, .cancelled)
  | _ =>
    match c.cancelAt with
    | some t =>
      if t ≤ s.budgetEnd then some (t, .cancelled) else some (s.budgetEnd, .budgetExceeded)
    | none => some (s.budgetEnd, .budgetExceeded)

def due? (s : Session) (c : Control) : Option Nat :=
  match s.stage.due?, s.cutOff? c with
  | some due, some (t, _) => some (min due t)
  | some due, none => some due
  | none, _ => none

/-- The next move. Where something is due at the very instant at which the session is to be cut off,
either of the two may come first; here the session is cut off. -/
def step (s : Session) (c : Control) (world : World) : World × Session :=
  match s.stage.due?, s.cutOff? c with
  | some due, some (t, reason) =>
    if t ≤ due then s.interrupt reason t world else s.proceed (c.isShutDown due) world
  | some due, none => s.proceed (c.isShutDown due) world
  | none, _ => (world, s)

def report? (s : Session) : Option Report :=
  match s.stage with
  | .ended outcome at_ =>
    some {
      relay := s.relay, target := s.job.target, outcome
      stats := { s.stats with flagged := s.splitter.flagged }
      elapsed := at_ - s.started }
  | _ => none

end Session

end Harvest
