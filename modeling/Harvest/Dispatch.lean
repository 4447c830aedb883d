import Harvest.Lighter
import Harvest.Session.Run

/-! The sessions of one cycle. Jobs are dealt out to workers; each worker has its own handle to the
sink and runs a limited number of sessions at a time, the others wait for their turn. A session
that was not begun when a stop is requested is not begun at all.

All sessions share one clock, which moves from one move to the next. `Dispatch.step?` makes the
move that comes next, and hands out the report of a session that it has ended. -/

namespace Harvest

/-! ## Dealing

Jobs are dealt out in turn, as cards are. Workers that get nothing are left out; they are always the
last ones, so a worker's number is its place in the list. -/

namespace Shard

/-- The items at the places `i`, `i + step`, `i + 2 * step`, …, where the head stands at `place`. -/
def every (step i : Nat) : Nat → List α → List α
  | _, [] => []
  | place, a :: rest =>
    if place % step = i then a :: every step i (place + 1) rest else every step i (place + 1) rest

/-- The shards of at most `workers` workers, at least one, in the order of the workers. -/
def deal (workers : Nat) (items : List α) : List (List α) :=
  let workers := max 1 workers
  (List.range (min workers items.length)).map fun i => every workers i 0 items

end Shard

/-! ## Tasks -/

inductive TaskEnd
  | ran
  | notStarted
  | crashed
deriving DecidableEq, Repr

inductive Progress
  | staggering (due : Nat)
  /-- Waits, since an instant, for one of its worker's sessions to end. -/
  | queued (since : Nat)
  | running (session : Session)
  | ended (ending : TaskEnd)

structure Task where
  worker : Nat
  job : Job
  progress : Progress

namespace Task

def isRunning (t : Task) : Bool :=
  match t.progress with
  | .running _ => true
  | _ => false

def isOver (t : Task) : Bool :=
  match t.progress with
  | .ended _ => true
  | _ => false

/-- The instant since which a task has queued; those that do not queue come first. -/
def since (t : Task) : Nat :=
  match t.progress with
  | .queued since => since
  | _ => 0

def weight (t : Task) : Weight :=
  match t.progress with
  | .staggering _ => ⟨3, 0, 0, 0, 0⟩
  | .queued _ => ⟨2, 0, 0, 0, 0⟩
  | .running s => s.weight
  | .ended _ => ⟨0, 0, 0, 0, 0⟩

/-- The instant of the next move, where `now` shows the clock and `slot` says whether the worker may
begin a session. -/
def due? (t : Task) (c : Control) (slot : Bool) (now : Nat) : Option Nat :=
  match t.progress with
  | .staggering due => some ((c.stopAt?.map (min due)).getD due)
  | .queued _ => if slot then some now else c.stopAt?
  | .running s => s.due? c
  | .ended _ => none

def drop (t : Task) : Task × Option Report :=
  ({ t with progress := .ended .notStarted }, some (.notStarted t.job))

def follow (t : Task) (s : Session) : Task × Option Report :=
  if s.isOver then
    match s.report? with
    | some r => ({ t with progress := .ended .ran }, some r)
    | none => ({ t with progress := .ended .crashed }, none)
  else ({ t with progress := .running s }, none)

def step (t : Task) (c : Control) (wall : UInt64) (now : Nat) (world : World) :
    World × Task × Option Report :=
  let stopped := c.stopAt?.any (· ≤ now)
  match t.progress with
  | .staggering _ =>
    (world, if stopped then t.drop else ({ t with progress := .queued now }, none))
  | .queued _ =>
    (world,
      if stopped then t.drop
      else ({ t with progress := .running (.start t.job wall now) }, none))
  | .running s =>
    let (world, s) := s.step c world
    (world, t.follow s)
  | .ended _ => (world, t, none)

end Task

/-! ## Moves -/

/-- Who moves next, and when: the place of a task in the list. -/
structure Turn where
  due : Nat
  since : Nat
  place : Nat
deriving DecidableEq

namespace Turn

/-- The earlier move comes first; of those that queue, who queues longer. -/
def precedes (a b : Turn) : Bool := a.due < b.due || (a.due == b.due && a.since < b.since)

/-- The first of all; where none precedes another, the one that is listed first. -/
def first? : List Turn → Option Turn
  | [] => none
  | a :: rest =>
    match first? rest with
    | none => some a
    | some b => if b.precedes a then some b else some a

theorem mem_of_first? {turns : List Turn} {a : Turn} (h : first? turns = some a) : a ∈ turns := by
  induction turns with
  | nil => simp [first?] at h
  | cons b rest ih =>
    simp only [first?] at h
    split at h
    · simp_all
    · split at h <;> simp_all

end Turn

structure Share where
  worker : Nat
  started : Nat
  notStarted : Nat
  crashed : Nat
deriving DecidableEq, Repr

structure Dispatch where
  /-- The most sessions that a worker runs at a time. -/
  limit : Nat
  control : Control
  wall : UInt64
  clock : Nat
  world : World
  /-- The tasks in the order of their workers. -/
  tasks : List Task
  /-- The workers whose handle to the sink is open. -/
  handles : List Nat

namespace Dispatch

def hasSlot (d : Dispatch) (worker : Nat) : Bool :=
  (d.tasks.filter fun t => t.worker == worker && t.isRunning).length < d.limit

def due? (d : Dispatch) (t : Task) : Option Nat :=
  (t.due? d.control (d.hasSlot t.worker) d.clock).map (max d.clock)

def turns (d : Dispatch) : List Turn :=
  d.tasks.zipIdx.filterMap fun (t, place) => (d.due? t).map fun due => ⟨due, t.since, place⟩

/-- A worker whose tasks are all over closes its handle. -/
def release (d : Dispatch) (worker : Nat) : Dispatch :=
  if d.handles.contains worker ∧ d.tasks.all fun t => t.worker != worker || t.isOver then
    { d with handles := d.handles.erase worker
             world := { d.world with sink := d.world.sink.close } }
  else d

/-- The next move, and the report of the task if it has ended with one. -/
def step? (d : Dispatch) : Option (Dispatch × Option Report) :=
  match Turn.first? d.turns with
  | none => none
  | some turn =>
    match d.tasks[turn.place]? with
    | none => none
    | some task =>
      let (world, task, report) := task.step d.control d.wall turn.due d.world
      let moved := { d with clock := turn.due, world, tasks := d.tasks.set turn.place task }
      some (moved.release task.worker, report)

/-! ## The end -/

theorem tasks_release (d : Dispatch) (worker : Nat) : (d.release worker).tasks = d.tasks := by
  simp only [release]; split <;> rfl

end Dispatch

theorem Task.step_lt (t : Task) (c : Control) (wall : UInt64) (now : Nat) (world : World)
    {slot : Bool} {clock due : Nat} (h : t.due? c slot clock = some due) :
    (t.step c wall now world).2.1.weight < t.weight := by
  obtain ⟨worker, job, progress⟩ := t
  cases progress with
  | staggering _ => simp only [step, drop]; split <;> simp [weight, Weight.lt_def]
  | queued _ =>
    simp only [step, drop]; split <;> simp [weight, Weight.lt_def, Session.weight, Session.start]
  | running s =>
    have hs : s.isOver = false := by
      cases hd : s.stage.due? with
      | none => simp [due?, Session.due?, hd] at h
      | some _ => simp [Session.isOver, hd]
    have hl := Session.step_lt s c world hs
    have h1 : s.weight.life = 1 := by
      simp only [Session.isOver] at hs
      simp only [Session.weight]
      cases hg : s.stage <;> simp_all [Stage.due?]
    simp only [step, follow]
    split
    · split <;> simp [weight, Weight.lt_def, h1]
    · exact hl
  | ended _ => simp [due?] at h

namespace Dispatch

theorem due?_of_mem_turns {d : Dispatch} {turn : Turn} (h : turn ∈ d.turns) :
    ∃ task, d.tasks[turn.place]? = some task ∧ d.due? task = some turn.due := by
  simp only [turns, List.mem_filterMap, Option.map_eq_some_iff, Prod.exists] at h
  obtain ⟨t, place, hm, due, hd, rfl⟩ := h
  exact ⟨t, List.mk_mem_zipIdx_iff_getElem?.mp hm, hd⟩

/-- Every move makes one task lighter and leaves the others as they are. -/
theorem step?_lighter {d next : Dispatch} {report : Option Report}
    (h : d.step? = some (next, report)) :
    Lighter (fun a b : Weight => a < b) (next.tasks.map Task.weight)
      (d.tasks.map Task.weight) := by
  simp only [step?] at h
  split at h
  · simp at h
  · rename_i turn ht
    obtain ⟨task, hp, hd⟩ := due?_of_mem_turns (Turn.mem_of_first? ht)
    simp only [hp, Option.some.injEq, Prod.mk.injEq] at h
    obtain ⟨rfl, rfl⟩ := h
    simp only [due?, Option.map_eq_some_iff] at hd
    obtain ⟨due, hd, _⟩ := hd
    rw [tasks_release]
    simp only [List.map_set]
    exact Lighter.set (a := task.weight) (by simp [hp]) (Task.step_lt task _ _ _ _ hd)

/-- Makes all moves, and lets `note` take note of each report and its instant. -/
def run (note : σ → Nat → Report → σ) (d : Dispatch) (s : σ) : Dispatch × σ :=
  match _h : d.step? with
  | none => (d, s)
  | some (next, report) =>
    run note next (match report with | some r => note s next.clock r | none => s)
termination_by (Lighter.wf Weight.lt_wf).wrap (d.tasks.map Task.weight)
decreasing_by exact step?_lighter ‹_›

/-! ## The beginning -/

/-- Deals the jobs out to at most `workers` workers at the instant `now`. `pause` is what the job at
a place of a worker's shard waits before its start. A worker in `refused` is given no sink: its
jobs are reported at once, as not started. -/
def begin_ (jobs : List Job) (workers limit : Nat) (pause : Nat → Nat → Nat) (refused : List Nat)
    (control : Control) (wall : UInt64) (now : Nat) (world : World) : Dispatch × List Report :=
  let shards := (Shard.deal workers jobs).zipIdx
  let tasks := shards.flatMap fun (shard, worker) =>
    shard.zipIdx.map fun (job, place) =>
      { worker, job
        progress :=
          if refused.contains worker then .ended .notStarted
          else .staggering (now + pause worker place) }
  let handles := (shards.map (·.2)).filter fun worker => !refused.contains worker
  ({ limit := max 1 limit, control, wall, clock := now, world, tasks, handles },
    (tasks.filter Task.isOver).map fun t => .notStarted t.job)

/-! ## Afterwards -/

def ended (d : Dispatch) (worker : Nat) (ending : TaskEnd) : Nat :=
  (d.tasks.filter fun t =>
    t.worker == worker &&
      match t.progress with
      | .ended e => e = ending
      | _ => false).length

def shares (d : Dispatch) : List Share :=
  (d.tasks.map Task.worker).eraseDups.map fun worker =>
    { worker, started := d.ended worker .ran, notStarted := d.ended worker .notStarted
      crashed := d.ended worker .crashed }

end Dispatch

end Harvest
