import Harvest.Coordinator
import Harvest.Proofs.Dispatch.Tasks

/-! What can happen to a coordinator in the course of many cycles, one event at a time. A cycle is
planned; a task makes a move, in whatever order; a report is noted, which may write a watermark; a
task is torn down; and at any instant all that is not kept is lost, be it that the cycle is over or
that the process dies. Between two events everything around may change: the clocks, the peers, the
relays that are listed, whether stores can be read or written, and when to stop. Only the sink
forgets nothing, and watermarks are written by no one else. -/

namespace Harvest

/-- Where a coordinator stands: between two cycles, or in one. -/
inductive Moment
  | idle (world : World) (watermarks : Watermarks)
  /-- The sessions of a cycle, their reports that were not noted yet, and what was noted so far. -/
  | busy (dispatch : Dispatch) (inbox : List Report) (ledger : Ledger)

namespace Moment

def world : Moment → World
  | idle world _ => world
  | busy d _ _ => d.world

def marks : Moment → WatermarkStore
  | idle _ watermarks => watermarks.store
  | busy _ _ ledger => ledger.watermarks.store

end Moment

theorem Ledger.watermarks_heed (l : Ledger) (control : Control) (now : Nat) :
    (l.heed control now).watermarks = l.watermarks := by
  rw [heed]
  split <;> rfl

theorem Ledger.committed_heed (l : Ledger) (control : Control) (now : Nat) :
    (l.heed control now).committed = l.committed := by
  rw [heed]
  split <;> rfl

theorem Ledger.sessions_heed (l : Ledger) (control : Control) (now : Nat) :
    (l.heed control now).sessions = l.sessions := by
  rw [heed]
  split <;> rfl

/-- Whether to note the report writes a watermark. -/
def Ledger.writes (l : Ledger) (r : Report) : Bool :=
  match r.confirmedUntil with
  | none => false
  | some stamp => (l.watermarks.set r.relay stamp).isOk

/-- A moment and what has led to it. -/
structure History where
  moment : Moment
  /-- The reports of the sessions that have ended, noted or not. -/
  ended : List Report := []
  /-- The reports whose watermarks were written, the first one first. -/
  commits : List Report := []

namespace History

/-- One event. -/
inductive Step (config : Config) (fleet : Fleet) : History → History → Prop
  /-- The jobs of a cycle are planned and dealt out. No relay is asked for more than it sends. -/
  | begin_ {world : World} {watermarks : Watermarks} {ended commits : List Report}
      {directory : Directory} {wall : UInt64} {jobs : List Job} {d : Dispatch}
      {refusals : List Report} (pause : Nat → Nat → Nat) (refused : List Nat) (control : Control)
      (now : Nat) :
      plan config directory watermarks wall = .ok jobs →
      (∀ job ∈ jobs, job.settings.resultCap ≤ fleet.cap job.relay.id) →
      Dispatch.begin_ jobs config.workers config.sessionsPerWorker pause refused control wall now
        world = (d, refusals) →
      Step config fleet ⟨.idle world watermarks, ended, commits⟩
        ⟨.busy d refusals { watermarks }, ended ++ refusals, commits⟩
  /-- A task makes its next move. -/
  | act {d : Dispatch} {inbox : List Report} {ledger : Ledger} {ended commits : List Report}
      {place : Nat} {task task' : Task} {world : World} {report : Option Report} (now : Nat) :
      fleet.Answers d.world → d.tasks[place]? = some task →
      task.step d.control d.wall now d.world = (world, task', report) →
      Step config fleet ⟨.busy d inbox ledger, ended, commits⟩
        ⟨.busy { d with world, tasks := d.tasks.set place task' } (inbox ++ report.toList) ledger,
          ended ++ report.toList, commits⟩
  /-- A task is torn down. -/
  | crash {d : Dispatch} {inbox : List Report} {ledger : Ledger} {ended commits : List Report}
      {place : Nat} {task : Task} : d.tasks[place]? = some task →
      Step config fleet ⟨.busy d inbox ledger, ended, commits⟩
        ⟨.busy { d with tasks := d.tasks.set place { task with progress := .ended .crashed } }
          inbox ledger, ended, commits⟩
  /-- The first report that was not noted yet is noted. -/
  | note {d : Dispatch} {inbox : List Report} {ledger : Ledger} {ended commits : List Report}
      (control : Control) (now : Nat) (r : Report) :
      Step config fleet ⟨.busy d (r :: inbox) ledger, ended, commits⟩
        ⟨.busy d inbox (ledger.noteAt control now r), ended,
          if ledger.writes r then commits ++ [r] else commits⟩
  /-- The cycle is over, or the process dies. -/
  | leave {d : Dispatch} {inbox : List Report} {ledger : Ledger} {ended commits : List Report} :
      Step config fleet ⟨.busy d inbox ledger, ended, commits⟩
        ⟨.idle d.world ledger.watermarks, ended, commits⟩
  /-- Things change around a cycle. -/
  | turn {d d' : Dispatch} {inbox : List Report} {ledger ledger' : Ledger}
      {ended commits : List Report} :
      d'.tasks = d.tasks → d.world.Retains d'.world →
      ledger'.watermarks.store = ledger.watermarks.store →
      Step config fleet ⟨.busy d inbox ledger, ended, commits⟩
        ⟨.busy d' inbox ledger', ended, commits⟩
  /-- Things change between two cycles. -/
  | rest {world world' : World} {watermarks watermarks' : Watermarks}
      {ended commits : List Report} :
      world.Retains world' → watermarks'.store = watermarks.store →
      Step config fleet ⟨.idle world watermarks, ended, commits⟩
        ⟨.idle world' watermarks', ended, commits⟩

/-- What one configuration can come to, if no watermark was there at first. -/
inductive Reached (config : Config) (fleet : Fleet) : History → Prop
  | start {world : World} {watermarks : Watermarks} :
      (∀ relay, watermarks.store.get? relay = none) →
      Reached config fleet { moment := .idle world watermarks }
  | step {h h' : History} : Reached config fleet h → Step config fleet h h' →
      Reached config fleet h'

end History

end Harvest
