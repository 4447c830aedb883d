import Harvest.Dispatch
import Harvest.Proofs.Session.Accounts

/-! Many sessions at a time. What a session knows of the events of its relay stays true whatever the
others do, as they only add to the sink. So no move of a task, whichever comes next, makes a report
that promises too much. -/

namespace Harvest

/-- The relays of a coordinator: the events that each of them holds, and the most items it can be
asked for without being cut short. -/
structure Fleet where
  held : RelayId → List Event
  cap : RelayId → Nat

/-- Every relay answers with the newest of its events. -/
def Fleet.Answers (fleet : Fleet) (world : World) : Prop :=
  ∀ relay, world.Honest (fleet.held relay) (fleet.cap relay) relay

/-- The sink of the second world holds what that of the first holds. -/
def World.Retains (world world' : World) : Prop :=
  ∀ id, world.holds id = true → world'.holds id = true

theorem Report.sound_notStarted {held : List Event} {world : World} (job : Job) :
    (Report.notStarted job).Sound held world := fun hd => by cases hd

namespace Task

/-- The settings of a task fit its relay, and its session has lost nothing. -/
structure Faithful (fleet : Fleet) (world : World) (t : Task) : Prop where
  pos : 1 ≤ t.job.settings.resultCap
  fits : t.job.settings.resultCap ≤ fleet.cap t.job.relay.id
  session : ∀ s, t.progress = .running s →
    s.job = t.job ∧ Session.Complete (fleet.held t.job.relay.id) (world, s)

variable {fleet : Fleet} {world : World} {t : Task}

theorem Faithful.mono (h : t.Faithful fleet world) {world' : World}
    (hw : world.Retains world') : t.Faithful fleet world' :=
  ⟨h.pos, h.fits, fun s hs => ⟨(h.session s hs).1, (h.session s hs).2.mono hw⟩⟩

/-- A task without a session has nothing to lose. -/
theorem Faithful.rest (h : t.Faithful fleet world) {progress : Progress}
    (hp : ∀ s, progress ≠ .running s) : Faithful fleet world { t with progress } :=
  ⟨h.pos, h.fits, fun s hs => absurd hs (hp s)⟩

/-- What becomes of a task in a move: its job stays, it stays faithful, and if it reports, then
about its job and without promising too much. -/
structure Moved (fleet : Fleet) (t : Task) (world' : World) (t' : Task)
    (report : Option Report) : Prop where
  job : t'.job = t.job
  faithful : t'.Faithful fleet world'
  report : ∀ r, report = some r → r.relay = t.job.relay.id ∧ r.target = t.job.target ∧
    r.Sound (fleet.held t.job.relay.id) world'

theorem moved_rest (h : t.Faithful fleet world) {progress : Progress}
    (hp : ∀ s, progress ≠ .running s) : Moved fleet t world { t with progress } none :=
  ⟨rfl, h.rest hp, fun _ hr => by cases hr⟩

theorem moved_drop (h : t.Faithful fleet world) : Moved fleet t world t.drop.1 t.drop.2 where
  job := rfl
  faithful := h.rest fun _ hs => by cases hs
  report r hr := by
    obtain rfl := Option.some.inj hr
    exact ⟨rfl, rfl, Report.sound_notStarted t.job⟩

/-- A session goes on, or its task ends with its report, or without one. -/
theorem moved_follow {s : Session} (h : t.Faithful fleet world) (hj : s.job = t.job)
    (hs : Session.Complete (fleet.held t.job.relay.id) (world, s)) :
    Moved fleet t world (t.follow s).1 (t.follow s).2 := by
  unfold follow
  split
  · split
    · rename_i r hr
      refine ⟨rfl, h.rest (fun _ hs => by cases hs), ?_⟩
      intro r' hr'
      obtain rfl := Option.some.inj hr'
      obtain ⟨-, hrelay, htarget, -⟩ := Session.of_report? hr
      rw [Session.relay, hj] at hrelay
      rw [hj] at htarget
      exact ⟨hrelay, htarget, hs.report hr⟩
    · exact moved_rest h fun _ hs => by cases hs
  · refine ⟨rfl, ⟨h.pos, h.fits, ?_⟩, fun _ hr => by cases hr⟩
    intro s' hs'
    obtain rfl := Progress.running.inj hs'
    exact ⟨hj, hs⟩

/-- No move of a task loses an event. -/
theorem Faithful.step (h : t.Faithful fleet world) (ha : fleet.Answers world) (c : Control)
    (wall : UInt64) (now : Nat) :
    world.Retains (t.step c wall now world).1 ∧
      Moved fleet t (t.step c wall now world).1 (t.step c wall now world).2.1
        (t.step c wall now world).2.2 := by
  have hkeep : world.Retains world := fun _ hk => hk
  rw [Task.step]
  cases hp : t.progress with
  | staggering due =>
    refine ⟨hkeep, ?_⟩
    dsimp only
    split
    · exact moved_drop h
    · exact moved_rest h fun _ hs => by cases hs
  | queued since =>
    refine ⟨hkeep, ?_⟩
    dsimp only
    split
    · exact moved_drop h
    · refine ⟨rfl, ⟨h.pos, h.fits, ?_⟩, fun _ hr => by cases hr⟩
      intro s hs
      obtain rfl := Progress.running.inj hs
      exact ⟨rfl, Session.accounts_start h.pos wall now⟩
  | running s =>
    obtain ⟨hj, hs⟩ := h.session s hp
    obtain ⟨hm, hkept, -⟩ := Session.leads_step s world c
    have hw : world.Retains (s.step c world).1 := fun _ hk => hm.holds hk
    -- what holds up to the relay's cap holds up to the lower cap of the session
    have hh : world.Honest (fleet.held t.job.relay.id) s.settings.resultCap s.relay := by
      rw [Session.settings, Session.relay, hj]
      exact (ha t.job.relay.id).mono h.fits
    exact ⟨hw, moved_follow (h.mono hw) (hkept.trans hj) (Session.complete_step hs hh c)⟩
  | ended ending =>
    exact ⟨hkeep, rfl, h, fun _ hr => by cases hr⟩

end Task

/-! ## What a move can be -/

namespace Task

/-- What a move of a task can be, and what comes of it: the world, the task and a report. -/
inductive Goes (c : Control) (wall : UInt64) (now : Nat) (world : World) (t : Task) :
    World × Task × Option Report → Prop
  | drop : (∀ s, t.progress ≠ .running s) →
      Goes c wall now world t
        (world, { t with progress := .ended .notStarted }, some (.notStarted t.job))
  | queue (due : Nat) : t.progress = .staggering due →
      Goes c wall now world t (world, { t with progress := .queued now }, none)
  | begin_ (since : Nat) : t.progress = .queued since →
      Goes c wall now world t
        (world, { t with progress := .running (.start t.job wall now) }, none)
  | goOn (s : Session) : t.progress = .running s →
      Goes c wall now world t
        ((s.step c world).1, { t with progress := .running (s.step c world).2 }, none)
  | report (s : Session) (r : Report) : t.progress = .running s →
      (s.step c world).2.report? = some r →
      Goes c wall now world t ((s.step c world).1, { t with progress := .ended .ran }, some r)
  | crash (s : Session) : t.progress = .running s →
      Goes c wall now world t ((s.step c world).1, { t with progress := .ended .crashed }, none)
  | rest (ending : TaskEnd) : t.progress = .ended ending → Goes c wall now world t (world, t, none)

theorem goes (c : Control) (wall : UInt64) (now : Nat) (world : World) (t : Task) :
    Goes c wall now world t (t.step c wall now world) := by
  rw [Task.step]
  cases hp : t.progress with
  | staggering due =>
    dsimp only
    split
    · exact .drop fun s hs => by rw [hp] at hs; cases hs
    · exact .queue due hp
  | queued since =>
    dsimp only
    split
    · exact .drop fun s hs => by rw [hp] at hs; cases hs
    · exact .begin_ since hp
  | running s =>
    dsimp only [follow]
    split
    · split
      · exact .report s _ hp (by assumption)
      · exact .crash s hp
    · exact .goOn s hp
  | ended ending => exact .rest ending hp

end Task

/-! ## The tasks of a dispatch -/

namespace Dispatch

theorem mem_of_mem_every {step i : Nat} {a : α} :
    ∀ {place : Nat} {items : List α}, a ∈ Shard.every step i place items → a ∈ items
  | _, [], h => h
  | place, b :: rest, h => by
    unfold Shard.every at h
    split at h
    · rcases List.mem_cons.mp h with rfl | h
      · exact List.mem_cons_self ..
      · exact List.mem_cons_of_mem _ (mem_of_mem_every h)
    · exact List.mem_cons_of_mem _ (mem_of_mem_every h)

/-- At the beginning no task has a session, and each has one of the jobs. -/
theorem mem_tasks_begin {jobs : List Job} {workers limit : Nat} {pause : Nat → Nat → Nat}
    {refused : List Nat} {control : Control} {wall : UInt64} {now : Nat} {world : World} {t : Task}
    (h : t ∈ (begin_ jobs workers limit pause refused control wall now world).1.tasks) :
    t.job ∈ jobs ∧ ∀ s, t.progress ≠ .running s := by
  simp only [begin_, List.mem_flatMap, List.mem_map, Prod.exists] at h
  obtain ⟨shard, worker, hs, job, place, hj, rfl⟩ := h
  have hs := List.fst_mem_of_mem_zipIdx hs
  have hj := List.fst_mem_of_mem_zipIdx hj
  rw [Shard.deal, List.mem_map] at hs
  obtain ⟨i, -, rfl⟩ := hs
  refine ⟨mem_of_mem_every hj, ?_⟩
  intro s
  dsimp only
  split <;> exact fun hs => by cases hs

/-- The tasks have the jobs in the order in which they were dealt out. -/
theorem jobs_begin (jobs : List Job) (workers limit : Nat) (pause : Nat → Nat → Nat)
    (refused : List Nat) (control : Control) (wall : UInt64) (now : Nat) (world : World) :
    (begin_ jobs workers limit pause refused control wall now world).1.tasks.map Task.job =
      (Shard.deal workers jobs).flatten := by
  simp only [begin_, List.map_flatMap, List.map_map, Function.comp_def]
  simp only [List.zipIdx_map_fst]
  rw [List.flatMap_def, List.zipIdx_map_fst]

/-- What is reported at the beginning has not been started. -/
theorem mem_refusals_begin {jobs : List Job} {workers limit : Nat} {pause : Nat → Nat → Nat}
    {refused : List Nat} {control : Control} {wall : UInt64} {now : Nat} {world : World}
    {r : Report}
    (h : r ∈ (begin_ jobs workers limit pause refused control wall now world).2) :
    ∃ job ∈ jobs, r = .notStarted job := by
  obtain ⟨t, ht, rfl⟩ := List.mem_map.mp h
  have ht : t ∈ (begin_ jobs workers limit pause refused control wall now world).1.tasks :=
    (List.mem_filter.mp ht).1
  exact ⟨t.job, (mem_tasks_begin ht).1, rfl⟩

theorem retains_release (d : Dispatch) (worker : Nat) :
    d.world.Retains (d.release worker).world := by
  intro id hk
  unfold release
  split
  · cases hd : d.world.sink.depot <;>
      simpa [World.holds, Sink.close, Depot.close, Depot.holds, hd, MemorySink.close] using hk
  · exact hk

/-- Every move is that of one task; afterwards its worker may close its handle to the sink. -/
theorem step?_eq_some {d next : Dispatch} {report : Option Report}
    (h : d.step? = some (next, report)) :
    ∃ place task now world task' worker, d.tasks[place]? = some task ∧
      task.step d.control d.wall now d.world = (world, task', report) ∧
      next = release { d with clock := now, world, tasks := d.tasks.set place task' } worker := by
  unfold step? at h
  split at h
  · cases h
  · rename_i turn hturn
    split at h
    · cases h
    · rename_i task htask
      obtain ⟨rfl, rfl⟩ := Prod.mk.inj (Option.some.inj h)
      exact ⟨turn.place, task, turn.due, _, _, _, htask, rfl, rfl⟩

theorem step?_goes {d next : Dispatch} {report : Option Report}
    (h : d.step? = some (next, report)) :
    ∃ place task now world task' worker, d.tasks[place]? = some task ∧
      Task.Goes d.control d.wall now d.world task (world, task', report) ∧
      next = release { d with clock := now, world, tasks := d.tasks.set place task' } worker := by
  obtain ⟨place, task, now, world, task', worker, htask, hstep, hnext⟩ := step?_eq_some h
  exact ⟨place, task, now, world, task', worker, htask, hstep ▸ Task.goes .., hnext⟩

/-- What every move keeps, its report being noted, a run keeps. -/
theorem run_keeps {note : σ → Nat → Report → σ} (keeps : Dispatch × σ → Prop)
    (hstep : ∀ d s next report, d.step? = some (next, report) → keeps (d, s) →
      keeps (next, match report with | some r => note s next.clock r | none => s))
    (d : Dispatch) (s : σ) (h : keeps (d, s)) : keeps (d.run note s) := by
  fun_induction Dispatch.run note d s with
  | case1 => exact h
  | case2 d s next report hn ih =>
    have hnext := hstep d s next report hn h
    cases report with
    | none => exact ih hnext
    | some r => exact ih hnext

theorem network_release (d : Dispatch) (worker : Nat) :
    (d.release worker).world.network = d.world.network := by
  rw [release]
  split <;> rfl

/-- One move, and the report that it brings is noted. -/
def advance (note : σ → Nat → Report → σ) (state : Dispatch × σ) : Dispatch × σ :=
  match state.1.step? with
  | none => state
  | some (next, none) => (next, state.2)
  | some (next, some r) => (next, note state.2 next.clock r)

theorem run_of_step? (note : σ → Nat → Report → σ) {d next : Dispatch} {report : Option Report}
    (h : d.step? = some (next, report)) (s : σ) :
    d.run note s =
      next.run note (match report with | some r => note s next.clock r | none => s) := by
  rw [run.eq_def note d s]
  split
  · rename_i hn
    rw [h] at hn
    cases hn
  · rename_i hn
    rw [h] at hn
    obtain ⟨rfl, rfl⟩ := Prod.mk.inj (Option.some.inj hn)
    rfl

theorem run_advance (note : σ → Nat → Report → σ) (d : Dispatch) (s : σ) :
    (advance note (d, s)).1.run note (advance note (d, s)).2 = d.run note s := by
  unfold advance
  split
  · rfl
  · rename_i hn
    exact (run_of_step? note hn s).symm
  · rename_i hn
    exact (run_of_step? note hn s).symm

/-- A run is as many moves as it takes until there is none left. -/
theorem run_eq_repeat {note : σ → Nat → Report → σ} {n : Nat} {state ended : Dispatch × σ}
    (h : Nat.repeat (advance note) n state = ended) (hover : ended.1.step? = none) :
    state.1.run note state.2 = ended := by
  have hrun : state.1.run note state.2 = ended.1.run note ended.2 := by
    rw [← h]
    clear h hover
    induction n with
    | zero => rfl
    | succ n ih => exact ih.trans (run_advance ..).symm
  rw [hrun, run]
  split
  · rfl
  · rename_i hn
    rw [hover] at hn
    cases hn

end Dispatch

end Harvest
