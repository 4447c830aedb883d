import Harvest.Proofs.Coordinator.Transition
import Harvest.Proofs.Session.Twins
import Harvest.Proofs.Shard.Deal

/-! The sessions of a cycle do not see each other. They share a clock and a sink, they wait for each
other's places, and they begin at different instants; but if each relay is listed once and the sink
accepts every batch at once, then a session that nobody stops reports what it would report alone. -/

namespace Harvest

/-- The report says what that of a session says which does the job alone, unless the session was not
begun or was stopped. -/
structure Report.Isolated (old : World) (job : Job) (r : Report) : Prop where
  relay : r.relay = job.relay.id
  alone : r.outcome ≠ .abandoned .notStarted → r.outcome ≠ .abandoned .shutdown →
    r.outcome ≠ .abandoned .cancelled → ∀ alone, World.Akin job.relay.id alone old →
      ((Session.start job 0 0).run {} alone).2.report?.map Report.unstored = some r.unstored

theorem Report.isolated_notStarted (old : World) (job : Job) :
    (Report.notStarted job).Isolated old job := ⟨rfl, fun h => absurd rfl h⟩

namespace Session

/-- The session has gone as far as one that does the job alone, unless it was stopped. -/
structure Apart (c : Control) (old world : World) (job : Job) (s : Session) : Prop where
  same : s.job = job
  alone : ¬ s.Doomed → ∀ alone, World.Akin job.relay.id alone old →
    ∃ x d wall, x.2.run {} x.1 = (start job 0 0).run {} alone ∧ Twins c d wall x (world, s)

variable {c : Control} {old world : World} {job : Job} {s : Session}

theorem apart_start (hp : world.network.peer? job.relay.id = old.network.peer? job.relay.id)
    (hs : world.sink.Accepts) (wall : UInt64) (now : Nat) :
    Apart c old world job (start job wall now) where
  same := rfl
  alone _ alone h :=
    ⟨(alone, start job 0 0), now, wall, rfl, twins_start ⟨h.peer.trans hp.symm, h.left, hs⟩ ..⟩

/-- What happens elsewhere does not matter. -/
theorem Apart.frame (h : Apart c old world job s) {world' : World}
    (hp : world'.network.peer? job.relay.id = world.network.peer? job.relay.id)
    (hs : world'.sink.Accepts) : Apart c old world' job s where
  same := h.same
  alone hd alone ha := by
    obtain ⟨x, d, wall, hrun, n, htwin, hakin, hin⟩ := h.alone hd alone ha
    have hjob : x.2.job = job := by
      have hsame := h.same
      rw [show s = x.2.twin d wall n from htwin] at hsame
      exact hsame
    refine ⟨x, d, wall, hrun, n, htwin, ⟨?_, hakin.left, hs⟩, hin⟩
    rw [hakin.peer, relay, hjob, hp]

theorem Apart.step (h : Apart c old world job s) :
    Apart c old (s.step c world).1 job (s.step c world).2 where
  same := (leads_step s world c).2.1.trans h.same
  alone hd alone ha := by
    obtain ⟨x, d, wall, hrun, htwins⟩ := h.alone (fun hx => hd (hx.step c world)) alone ha
    refine ⟨x.2.step {} x.1, d, wall, ?_, htwins.step.resolve_right fun hx => hd hx.2⟩
    rw [run_step, hrun]

theorem Apart.report (h : Apart c old world job s) {r : Report} (hr : s.report? = some r) :
    r.Isolated old job := by
  obtain ⟨⟨at_, hstage⟩, hrelay, -⟩ := of_report? hr
  refine ⟨by rw [hrelay, relay, h.same], fun _ hshutdown hcancelled alone ha => ?_⟩
  have hd : ¬ s.Doomed := fun hd => (hd.report hr).elim hshutdown hcancelled
  obtain ⟨x, d, wall, hrun, htwins⟩ := h.alone hd alone ha
  have hover : x.2.isOver = true := by
    rw [← htwins.isOver, isOver, hstage]
    rfl
  rw [run, dif_neg (by rw [hover]; decide)] at hrun
  rw [← hrun, ← htwins.report, hr]
  rfl

end Session

namespace Task

/-- As long as a task has no session its relay is untouched; then its session goes its own way. -/
def Apart (c : Control) (old world : World) (t : Task) : Prop :=
  match t.progress with
  | .staggering _ | .queued _ =>
    world.network.peer? t.job.relay.id = old.network.peer? t.job.relay.id
  | .running s => s.Apart c old world t.job
  | .ended _ => True

variable {c : Control} {old world : World} {t : Task}

theorem Apart.frame (h : t.Apart c old world) {world' : World}
    (hp : world'.network.peer? t.job.relay.id = world.network.peer? t.job.relay.id)
    (hs : world'.sink.Accepts) : t.Apart c old world' := by
  simp only [Apart] at h ⊢
  cases ht : t.progress with
  | staggering => rw [ht] at h; exact hp.trans h
  | queued => rw [ht] at h; exact hp.trans h
  | running s => rw [ht] at h; exact h.frame hp hs
  | ended => trivial

/-- A move of a task makes calls to its own relay only, and reports what it would report alone. -/
theorem Apart.goes (h : t.Apart c old world) (hs : world.sink.Accepts) {wall : UInt64} {now : Nat}
    {world' : World} {t' : Task} {report : Option Report}
    (hg : t.Goes c wall now world (world', t', report)) :
    World.Moves t.job.relay.id world world' ∧ t'.job = t.job ∧ t'.Apart c old world' ∧
      ∀ r, report = some r → r.Isolated old t.job := by
  simp only [Apart] at h
  have hmoves {s : Session} (h : s.Apart c old world t.job) :
      World.Moves t.job.relay.id world (s.step c world).1 := by
    have hm := (Session.leads_step s world c).1
    rw [Session.relay, h.same] at hm
    exact hm
  cases hg with
  | drop =>
    refine ⟨.refl, rfl, trivial, fun r hr => ?_⟩
    obtain rfl := Option.some.inj hr
    exact Report.isolated_notStarted old t.job
  | queue due hp =>
    rw [hp] at h
    exact ⟨.refl, rfl, h, fun _ hr => by cases hr⟩
  | begin_ since hp =>
    rw [hp] at h
    exact ⟨.refl, rfl, Session.apart_start h hs wall now, fun _ hr => by cases hr⟩
  | goOn s hp =>
    rw [hp] at h
    exact ⟨hmoves h, rfl, h.step, fun _ hr => by cases hr⟩
  | report s r hp hr =>
    rw [hp] at h
    refine ⟨hmoves h, rfl, trivial, fun r' hr' => ?_⟩
    obtain rfl := Option.some.inj hr'
    exact h.step.report hr
  | crash s hp =>
    rw [hp] at h
    exact ⟨hmoves h, rfl, trivial, fun _ hr => by cases hr⟩
  | rest ending hp =>
    refine ⟨.refl, rfl, ?_, fun _ hr => by cases hr⟩
    simp only [Apart, hp]

end Task

namespace Coordinator

/-- How the sessions of a cycle stand to each other: no two have the same relay, and each goes its
own way. -/
structure Apart (c : Control) (old : World) (jobs : List Job) (state : Dispatch × Ledger) : Prop where
  control : state.1.control = c
  accepts : state.1.world.sink.Accepts
  distinct : (state.1.tasks.map fun t => t.job.relay.id).Nodup
  tasks : ∀ t ∈ state.1.tasks, t.job ∈ jobs ∧ t.Apart c old state.1.world
  reports : ∀ r ∈ state.2.sessions, ∃ job ∈ jobs, r.Isolated old job

variable {c : Control} {old : World} {jobs : List Job}

theorem Apart.note {d : Dispatch} {l : Ledger} (h : Apart c old jobs (d, l)) {r : Report}
    {job : Job} (hj : job ∈ jobs) (hr : r.Isolated old job) (control : Control) (now : Nat) :
    Apart c old jobs (d, l.noteAt control now r) := by
  refine ⟨h.control, h.accepts, h.distinct, h.tasks, fun r' hr' => ?_⟩
  rw [Ledger.sessions_noteAt] at hr'
  rcases List.mem_append.mp hr' with hr' | hr'
  · exact h.reports r' hr'
  · obtain rfl := List.mem_singleton.mp hr'
    exact ⟨job, hj, hr⟩

theorem accepts_release {d : Dispatch} (h : d.world.sink.Accepts) (worker : Nat) :
    (d.release worker).world.sink.Accepts := by
  unfold Dispatch.release
  split
  · exact h.close
  · exact h

/-- A move of one task leaves the others alone. -/
theorem Apart.move {d next : Dispatch} {l : Ledger} {report : Option Report}
    (h : Apart c old jobs (d, l)) (hn : d.step? = some (next, report)) :
    Apart c old jobs (next, l) ∧
      ∀ r, report = some r → ∃ job ∈ jobs, r.Isolated old job := by
  obtain ⟨place, task, now, world, task', worker, htask, hgoes, rfl⟩ := Dispatch.step?_goes hn
  obtain ⟨hjob, hapart⟩ := h.tasks task (List.mem_of_getElem? htask)
  have hcontrol : d.control = c := h.control
  rw [hcontrol] at hgoes
  obtain ⟨hmoves, hkept, hnext, hreport⟩ := hapart.goes h.accepts hgoes
  have haccepts : world.sink.Accepts := hmoves.accepts h.accepts
  refine ⟨?_, fun r hr => ⟨task.job, hjob, hreport r hr⟩⟩
  have hreleased := accepts_release (d := { d with
    clock := now, world, tasks := d.tasks.set place task' }) haccepts worker
  have hnet := Dispatch.network_release { d with
    clock := now, world, tasks := d.tasks.set place task' } worker
  have htasks := Dispatch.tasks_release { d with
    clock := now, world, tasks := d.tasks.set place task' } worker
  refine ⟨?_, hreleased, ?_, ?_, h.reports⟩
  · rw [Dispatch.release]
    split <;> exact hcontrol
  · have hids : (d.tasks.map fun t => t.job.relay.id)[place]? = some task'.job.relay.id := by
      rw [List.getElem?_map, htask, hkept]
      rfl
    obtain ⟨hi, hid⟩ := List.getElem?_eq_some_iff.mp hids
    rw [htasks, List.map_set, ← hid, List.set_getElem_self]
    exact h.distinct
  · rw [htasks]
    intro t ht
    obtain ⟨i, hi⟩ := List.mem_iff_getElem?.mp ht
    by_cases hplace : place = i
    · subst i
      rw [List.getElem?_set_self (List.getElem?_eq_some_iff.mp htask).1] at hi
      obtain rfl := Option.some.inj hi
      exact ⟨hkept ▸ hjob, hnext.frame (by rw [hnet]) hreleased⟩
    · rw [List.getElem?_set_ne hplace] at hi
      obtain ⟨hj, ht⟩ := h.tasks t (List.mem_of_getElem? hi)
      -- another task has another relay
      have hne : t.job.relay.id ≠ task.job.relay.id := by
        intro he
        have hlt : place < (d.tasks.map fun t => t.job.relay.id).length := by
          rw [List.length_map]
          exact (List.getElem?_eq_some_iff.mp htask).1
        refine hplace ((List.getElem?_inj hlt h.distinct).mp ?_)
        rw [List.getElem?_map, List.getElem?_map, htask, hi, Option.map_some, Option.map_some, he]
      refine ⟨hj, ht.frame ?_ hreleased⟩
      rw [hnet]
      exact hmoves.peer_of_ne hne

theorem Apart.step {d next : Dispatch} {l : Ledger} {report : Option Report}
    (h : Apart c old jobs (d, l)) (control : Control) :
    d.step? = some (next, report) →
      Apart c old jobs
        (next, match report with | some r => l.noteAt control next.clock r | none => l) := by
  intro hn
  obtain ⟨hmove, hreport⟩ := h.move hn
  cases report with
  | none => exact hmove
  | some r =>
    obtain ⟨job, hj, hr⟩ := hreport r rfl
    exact hmove.note hj hr control next.clock

/-- The tasks of a cycle are its jobs, in the order of their workers. -/
theorem jobs_begun (c : Coordinator) (wall : UInt64) (jobs : List Job) :
    (c.begun wall jobs).1.tasks.map Task.job = (Shard.deal c.config.workers jobs).flatten :=
  Dispatch.jobs_begin ..

/-- In a whole cycle over jobs of different relays each session goes its own way. -/
theorem apart_cycle {c : Coordinator} (hs : c.world.sink.Accepts) (wall : UInt64)
    (hids : (jobs.map fun job => job.relay.id).Nodup) :
    Apart c.control c.world jobs
      ((c.begun wall jobs).1.run (Ledger.noteAt c.control) (c.begun wall jobs).2) := by
  refine cycle_keeps (Apart c.control c.world jobs) ⟨rfl, hs, ?_, ?_, fun r hr => by cases hr⟩ ?_ ?_
  · have htasks : ((c.begun wall jobs).1.tasks.map fun t => t.job.relay.id) =
        ((c.begun wall jobs).1.tasks.map Task.job).map fun job => job.relay.id := by
      rw [List.map_map]
      rfl
    rw [htasks, jobs_begun]
    exact ((Shard.deal_perm c.config.workers jobs).map _).nodup_iff.mpr hids
  · intro t ht
    obtain ⟨hj, hrest⟩ := Dispatch.mem_tasks_begin ht
    refine ⟨hj, ?_⟩
    unfold Task.Apart
    split
    · rfl
    · rfl
    · exact absurd ‹_› (hrest _)
    · trivial
  · intro job hj d l h
    exact h.note hj (Report.isolated_notStarted ..) c.control c.clock
  · intro d l next report hn h
    exact h.step c.control hn

/-- **A session that is not stopped reports in a cycle what it reports alone, whichever other relays
there are, however they behave, and however the sessions are dealt out and interleaved.** -/
theorem runCycle_isolated (c : Coordinator) (wall : UInt64) (hs : c.world.sink.Accepts)
    (hids : ∀ relays, c.directory.listEligible = .ok relays → (relays.map Relay.id).Nodup)
    {report : CycleReport} (hreport : (c.runCycle wall).result = .ok report) :
    ∀ r ∈ report.sessions, r.outcome ≠ .abandoned .notStarted → r.outcome ≠ .abandoned .shutdown →
      r.outcome ≠ .abandoned .cancelled →
      ∃ relays, c.directory.listEligible = .ok relays ∧ ∃ relay ∈ relays, r.relay = relay.id ∧
        ∀ (alone : World) (wall' : UInt64) (now : Nat), alone.sink.Accepts →
          alone.network.peer? relay.id = c.world.network.peer? relay.id →
            ((Session.start (c.jobFor wall relay) wall' now).run {} alone).2.report?.map
              Report.unstored = some r.unstored := by
  obtain ⟨hstate, relays, hl, hp⟩ := of_result_ok hreport
  obtain ⟨report', hresult, hsessions, -⟩ := result_of_plan hstate hp rfl
  obtain rfl := Except.ok.inj (hreport.symm.trans hresult)
  have hdistinct : ((relays.map (c.jobFor wall)).map fun job => job.relay.id).Nodup := by
    rw [List.map_map]
    exact hids relays hl
  have hapart := apart_cycle hs wall hdistinct
  intro r hr hnot hshutdown hcancelled
  rw [hsessions] at hr
  obtain ⟨job, hj, hrelay, halone⟩ := hapart.reports r hr
  obtain ⟨relay, hm, rfl⟩ := List.mem_map.mp hj
  refine ⟨relays, hl, relay, hm, hrelay, fun alone wall' now ha hpeer => ?_⟩
  have htwins : Session.Twins {} now wall' (alone, Session.start (c.jobFor wall relay) 0 0)
      (alone, Session.start (c.jobFor wall relay) wall' now) :=
    Session.twins_start ⟨rfl, ha, ha⟩ now wall' 0
  rw [htwins.run.report]
  exact halone hnot hshutdown hcancelled alone ⟨hpeer, ha, hs⟩

/-- One relay refuses all connections; the other one is drained as if it were alone. -/
theorem runCycle_isolated_refused :
    let relays : List Relay := [{ id := "closed" }, { id := "open" }]
    let c : Coordinator :=
      { config := {}, directory := .memory { relays }, watermarks := { store := .memory {} }
        world := { network := { peers := [("open", .memory { events := [], latency := 3 })] }
                   sink := { depot := .memory {} } } }
    let alone : World := { network := c.world.network, sink := { depot := .store {} } }
    ∃ report, (c.runCycle 5).result = .ok report ∧
      ∃ r ∈ report.sessions, r.relay = "open" ∧ r.outcome = .drained ∧
        ((Session.start (c.jobFor 5 { id := "open" }) 7 0).run {} alone).2.report?.map
          Report.unstored = some r.unstored := by
  intro relays c alone
  have hplan : plan c.config c.directory c.watermarks 5 = .ok (relays.map (c.jobFor 5)) := rfl
  have hends : ∃ ended,
      Nat.repeat (Dispatch.advance (Ledger.noteAt c.control)) 24
          (c.begun 5 (relays.map (c.jobFor 5))) = ended ∧
        ended.1.step?.isNone = true ∧
        (ended.2.sessions.find? (·.relay = "open")).map (·.outcome) = some .drained := by
    refine ⟨_, rfl, ?_⟩
    clear hplan
    revert relays c alone
    decide +kernel
  obtain ⟨ended, hend, hover, hfound⟩ := hends
  have hrun := Dispatch.run_eq_repeat hend (Option.isNone_iff_eq_none.mp hover)
  obtain ⟨report, hresult, hsessions, -⟩ := result_of_plan rfl hplan hrun
  obtain ⟨r, hr, ho⟩ := Option.map_eq_some_iff.mp hfound
  have hmem : r ∈ report.sessions := hsessions ▸ List.mem_of_find?_eq_some hr
  have hrelay : r.relay = "open" := by simpa using List.find?_some hr
  have hids : ∀ relays, c.directory.listEligible = .ok relays → (relays.map Relay.id).Nodup := by
    intro relays hl
    obtain rfl := Except.ok.inj hl
    decide
  obtain ⟨_, hl, relay, hm, hid, hall⟩ := runCycle_isolated c 5 ⟨rfl, rfl, rfl⟩ hids hresult r hmem
    (by rw [ho]; decide) (by rw [ho]; decide) (by rw [ho]; decide)
  obtain rfl := Except.ok.inj hl
  obtain rfl : relay = { id := "open" } := by
    rcases List.mem_cons.mp hm with rfl | hm
    · rw [hrelay] at hid
      exact absurd hid (by decide)
    · exact List.mem_singleton.mp hm
  exact ⟨report, hresult, r, hmem, hrelay, ho, hall alone 7 0 ⟨rfl, trivial⟩ rfl⟩

end Coordinator

end Harvest
