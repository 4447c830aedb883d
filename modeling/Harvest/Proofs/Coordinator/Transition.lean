import Harvest.Proofs.Coordinator.Cycles
import Harvest.Proofs.Dispatch.Reports
import Harvest.Proofs.Session.Answered

/-! What a cycle makes of the watermarks, exactly. Every session goes from the watermark of its
relay up to the present second. Whatever the tasks do, the cycle waits until all are over, and its
sessions are what was refused at the beginning and what the tasks have reported. The watermark of a relay is raised to that second if a session of
the relay ended drained and the store takes the new value; no other watermark changes. A cycle that
cannot be planned changes nothing at all. -/

namespace Harvest

/-! ## Planning -/

/-- An error for one item is an error for the list. -/
theorem mapM_eq_error {f : α → Except ε β} {items : List α}
    (h : ∃ a ∈ items, ∃ fault, f a = .error fault) : ∃ fault, items.mapM f = .error fault := by
  induction items with
  | nil =>
    obtain ⟨a, ha, -⟩ := h
    cases ha
  | cons a rest ih =>
    rw [List.mapM_cons]
    cases ha : f a with
    | error fault => exact ⟨fault, rfl⟩
    | ok b =>
      obtain ⟨a', hm, fault, hf⟩ := h
      rcases List.mem_cons.mp hm with rfl | hm
      · rw [ha] at hf
        cases hf
      · obtain ⟨fault, hr⟩ := ih ⟨a', hm, fault, hf⟩
        exact ⟨fault, by rw [hr]; rfl⟩

namespace Coordinator

/-- What a cycle that starts at the second `wall` is to do about a relay. -/
def jobFor (c : Coordinator) (wall : UInt64) (relay : Relay) : Job where
  relay
  target :=
    ⟨min ((c.watermarks.store.get? relay.id).getD (wall.toNat - c.config.defaultLookback))
      wall.toNat, wall.toNat⟩
  settings := c.config.settings relay

/-- The directory cannot be read, a listed relay needs a proxy and there is none, or the watermark
of a listed relay cannot be read. -/
def Unplannable (c : Coordinator) : Prop :=
  (∃ fault, c.directory.listEligible = .error fault) ∨
    ∃ relays, c.directory.listEligible = .ok relays ∧
      ((c.config.proxyAddr = none ∧ ∃ relay ∈ relays, relay.route = .proxied) ∨
        ∃ relay ∈ relays, c.watermarks.refusesGet relay.id = true)

theorem validateRelays_eq_ok {config : Config} {relays : List Relay}
    (h : ¬ (config.proxyAddr = none ∧ ∃ relay ∈ relays, relay.route = .proxied)) :
    config.validateRelays relays = .ok () := by
  unfold Config.validateRelays
  split
  · rename_i relay hp hf
    exact absurd ⟨hp, relay, List.mem_of_find?_eq_some hf, by simpa using List.find?_some hf⟩ h
  · rfl

theorem validateRelays_eq_error {config : Config} {relays : List Relay}
    (hp : config.proxyAddr = none) (h : ∃ relay ∈ relays, relay.route = .proxied) :
    ∃ fault, config.validateRelays relays = .error fault := by
  obtain ⟨relay, hm, hr⟩ := h
  have hs : (relays.find? (·.route = .proxied)).isSome = true :=
    List.find?_isSome.mpr ⟨relay, hm, decide_eq_true hr⟩
  obtain ⟨found, hf⟩ := Option.isSome_iff_exists.mp hs
  exact ⟨.noProxy found.id, by rw [Config.validateRelays, hp, hf]⟩

/-- Planning fails for one of the reasons there are, or it plans a job for every listed relay. -/
theorem plan_cases (c : Coordinator) (wall : UInt64) :
    (c.Unplannable ∧ ∃ fault, plan c.config c.directory c.watermarks wall = .error fault) ∨
      ¬ c.Unplannable ∧ ∃ relays, c.directory.listEligible = .ok relays ∧
        plan c.config c.directory c.watermarks wall = .ok (relays.map (c.jobFor wall)) := by
  cases hl : c.directory.listEligible with
  | error fault => exact .inl ⟨.inl ⟨fault, hl⟩, fault, by rw [plan, hl]⟩
  | ok relays =>
    by_cases hp : c.config.proxyAddr = none ∧ ∃ relay ∈ relays, relay.route = .proxied
    · obtain ⟨fault, hv⟩ := validateRelays_eq_error hp.1 hp.2
      exact .inl ⟨.inr ⟨relays, hl, .inl hp⟩, fault.toFailure, by simp only [plan, hl, hv]⟩
    · have hv := validateRelays_eq_ok hp
      have hplan : plan c.config c.directory c.watermarks wall =
          relays.mapM (planRelay c.config c.watermarks wall) := by simp only [plan, hl, hv]
      by_cases hg : ∃ relay ∈ relays, c.watermarks.refusesGet relay.id = true
      · left
        refine ⟨.inr ⟨relays, hl, .inr hg⟩, ?_⟩
        rw [hplan]
        obtain ⟨relay, hm, hr⟩ := hg
        exact mapM_eq_error ⟨relay, hm, _, by rw [planRelay, Watermarks.get, if_pos hr]⟩
      · right
        constructor
        · rintro (⟨fault, hf⟩ | ⟨relays', hl', hbad⟩)
          · rw [hl] at hf
            cases hf
          · obtain rfl := Except.ok.inj (hl.symm.trans hl')
            exact hbad.elim hp hg
        · refine ⟨relays, rfl, ?_⟩
          rw [hplan]
          refine mapM_eq_ok fun relay hm => ?_
          have hr : c.watermarks.refusesGet relay.id ≠ true := fun hr => hg ⟨relay, hm, hr⟩
          rw [planRelay, Watermarks.get, if_neg hr]
          rfl

end Coordinator

/-! ## The ledger -/

namespace Ledger

theorem sessions_noteAt (l : Ledger) (control : Control) (now : Nat) (r : Report) :
    (l.noteAt control now r).sessions = l.sessions ++ [r] := by
  have hs := l.sessions_heed control now
  simp only [noteAt, note, commit]
  split
  · rw [hs]
  · split <;> rw [hs]

theorem sessions_noteAll (control : Control) (now : Nat) (reports : List Report) (l : Ledger) :
    (reports.foldl (fun l r => l.noteAt control now r) l).sessions = l.sessions ++ reports := by
  induction reports generalizing l with
  | nil => exact (List.append_nil _).symm
  | cons r rest ih =>
    rw [List.foldl_cons, ih, sessions_noteAt, List.append_assoc, List.singleton_append]

/-- To note a report writes its watermark if its session was drained and the store takes it. -/
theorem marks_noteAt (l : Ledger) (control : Control) (now : Nat) (r : Report) :
    if r.outcome = .drained ∧ l.watermarks.refusesSet r.relay = false then
      (l.noteAt control now r).watermarks =
          { l.watermarks with store := l.watermarks.store.set r.relay r.target.upto } ∧
        (l.noteAt control now r).committed = l.committed.set r.relay r.target.upto
    else
      (l.noteAt control now r).watermarks = l.watermarks ∧
        (l.noteAt control now r).committed = l.committed := by
  have hw := l.watermarks_heed control now
  have hc := l.committed_heed control now
  simp only [noteAt, note, commit, Report.confirmedUntil]
  cases ho : r.outcome with
  | drained =>
    simp only [Outcome.isDrained, if_true, Watermarks.set, hw]
    cases hr : l.watermarks.refusesSet r.relay with
    | true => exact ⟨hw, hc⟩
    | false => exact ⟨rfl, congrArg (·.set r.relay r.target.upto) hc⟩
  | abandoned reason => exact ⟨hw, hc⟩
  | sinkFailed fault => exact ⟨hw, hc⟩

/-- A session among the reports has covered the relay, and the store takes its watermark. -/
def Confirms (before : Watermarks) (reports : List Report) (relay : RelayId) : Prop :=
  (∃ r ∈ reports, r.relay = relay ∧ r.outcome = .drained) ∧ before.refusesSet relay = false

/-- The ledger of a cycle up to the second `now` that has begun with the watermarks `before`. -/
structure Exact (before : Watermarks) (now : Nat) (l : Ledger) : Prop where
  same : l.watermarks = { before with store := l.watermarks.store }
  moved : ∀ relay, Confirms before l.sessions relay →
    l.watermarks.store.get? relay = some (raised (before.store.get? relay) now) ∧
      l.committed.get? relay = some now
  kept : ∀ relay, ¬ Confirms before l.sessions relay →
    l.watermarks.store.get? relay = before.store.get? relay ∧ l.committed.get? relay = none

variable {before : Watermarks} {now : Nat} {l : Ledger}

theorem exact_start (before : Watermarks) (now : Nat) :
    Exact before now { watermarks := before } where
  same := rfl
  moved _ h := by
    obtain ⟨⟨r, hr, -⟩, -⟩ := h
    cases hr
  kept _ _ := ⟨rfl, rfl⟩

theorem raised_raised (held : Option Nat) (now : Nat) :
    raised (some (raised held now)) now = raised held now := by
  cases held with
  | none => exact Nat.max_self _
  | some w => exact (Nat.max_assoc ..).trans (congrArg _ (Nat.max_self _))

theorem confirms_append {reports : List Report} {r : Report} {relay : RelayId} :
    Confirms before (reports ++ [r]) relay ↔
      Confirms before reports relay ∨
        r.relay = relay ∧ r.outcome = .drained ∧ before.refusesSet relay = false := by
  simp only [Confirms, List.mem_append, List.mem_singleton, or_and_right, exists_or,
    exists_eq_left, and_assoc]

theorem Exact.noteAt (h : l.Exact before now) {r : Report} (hr : r.target.upto = now)
    (control : Control) (instant : Nat) : (l.noteAt control instant r).Exact before now := by
  have hrefuses : l.watermarks.refusesSet = before.refusesSet := by rw [h.same]; rfl
  have hmarks := l.marks_noteAt control instant r
  rw [hrefuses] at hmarks
  split at hmarks
  · rename_i hwrites
    obtain ⟨hw, hc⟩ := hmarks
    rw [hr] at hw hc
    constructor
    · rw [hw, h.same]
    · intro relay hconf
      rw [sessions_noteAt, confirms_append] at hconf
      rw [hw, hc, WatermarkStore.get?_set, Table.get?_set]
      split
      · -- the watermark of the report itself, which another one may have raised before
        rename_i he
        subst relay
        refine ⟨?_, rfl⟩
        by_cases hbefore : Confirms before l.sessions r.relay
        · rw [(h.moved _ hbefore).1, raised_raised]
        · rw [(h.kept _ hbefore).1]
      · rename_i hne
        exact h.moved relay (hconf.resolve_right fun hx => hne hx.1.symm)
    · intro relay hconf
      rw [sessions_noteAt, confirms_append, not_or] at hconf
      obtain ⟨hbefore, hnot⟩ := hconf
      have hne : relay ≠ r.relay := by
        rintro rfl
        exact hnot ⟨rfl, hwrites⟩
      rw [hw, hc, WatermarkStore.get?_set, Table.get?_set, if_neg hne, if_neg hne]
      exact h.kept relay hbefore
  · rename_i hwrites
    obtain ⟨hw, hc⟩ := hmarks
    have hconf (relay : RelayId) :
        Confirms before (l.noteAt control instant r).sessions relay ↔
          Confirms before l.sessions relay := by
      rw [sessions_noteAt, confirms_append]
      refine or_iff_left ?_
      rintro ⟨rfl, hx⟩
      exact hwrites hx
    refine ⟨by rw [hw]; exact h.same, ?_, ?_⟩
    · intro relay hx
      rw [hw, hc]
      exact h.moved relay ((hconf relay).mp hx)
    · intro relay hx
      rw [hw, hc]
      exact h.kept relay fun hb => hx ((hconf relay).mpr hb)

end Ledger

/-! ## The reports of a cycle -/

/-- The report is one about the job, and if the session has drained the target then the relay was
asked for it and has answered. -/
structure Report.Tells (old world : World) (job : Job) (r : Report) : Prop where
  relay : r.relay = job.relay.id
  target : r.target = job.target
  answered : r.outcome = .drained →
    1 ≤ r.stats.queries ∧ 1 ≤ r.stats.resolved ∧ old.AskedSince world r.relay r.target

theorem Report.Tells.more {old world world' : World} {job : Job} {r : Report}
    (h : r.Tells old world job) (more : List Asked)
    (hm : world'.network.asked = more ++ world.network.asked) : r.Tells old world' job where
  relay := h.relay
  target := h.target
  answered hd := by
    obtain ⟨hq, hn, ha⟩ := h.answered hd
    exact ⟨hq, hn, ha.more more hm⟩

theorem Report.tells_notStarted (old world : World) (job : Job) :
    (Report.notStarted job).Tells old world job := ⟨rfl, rfl, fun hd => by cases hd⟩

namespace Task

/-- The session of a task, if it has one, does the job of the task. -/
structure Engaged (old world : World) (t : Task) : Prop where
  nonempty : t.job.target.since ≤ t.job.target.upto
  session : ∀ s, t.progress = .running s → s.job = t.job ∧ Session.Engaged old (world, s)

variable {old world : World} {t : Task}

theorem Engaged.more (h : t.Engaged old world) {world' : World} (more : List Asked)
    (hm : world'.network.asked = more ++ world.network.asked) : t.Engaged old world' :=
  ⟨h.nonempty, fun s hs => ⟨(h.session s hs).1, (h.session s hs).2.more more hm⟩⟩

theorem Engaged.rest (h : t.Engaged old world) {progress : Progress}
    (hp : ∀ s, progress ≠ .running s) : Engaged old world { t with progress } :=
  ⟨h.nonempty, fun s hs => absurd hs (hp s)⟩

/-- A move of a task keeps its job, and what it reports is about the job. -/
theorem Engaged.goes (h : t.Engaged old world)
    (hold : ∃ more, world.network.asked = more ++ old.network.asked) {c : Control} {wall : UInt64}
    {now : Nat} {world' : World} {t' : Task} {report : Option Report}
    (hg : t.Goes c wall now world (world', t', report)) :
    (∃ more, world'.network.asked = more ++ world.network.asked) ∧ t'.job = t.job ∧
      t'.Engaged old world' ∧ ∀ r, report = some r → r.Tells old world' t.job := by
  have hmoves {s : Session} (hp : t.progress = .running s) :
      (s.step c world).2.job = t.job ∧ Session.Engaged old (s.step c world) ∧
        ∃ more, (s.step c world).1.network.asked = more ++ world.network.asked := by
    obtain ⟨hj, hs⟩ := h.session s hp
    obtain ⟨hm, hkept, -⟩ := Session.leads_step s world c
    exact ⟨hkept.trans hj, Session.engaged_step hs hold c, hm.asked⟩
  have hquiet : ∃ more, world.network.asked = more ++ world.network.asked := ⟨[], rfl⟩
  cases hg with
  | drop =>
    refine ⟨hquiet, rfl, h.rest fun _ hs => (by cases hs), fun r hr => ?_⟩
    obtain rfl := Option.some.inj hr
    exact Report.tells_notStarted old world t.job
  | queue => exact ⟨hquiet, rfl, h.rest fun _ hs => (by cases hs), fun _ hr => by cases hr⟩
  | begin_ =>
    refine ⟨hquiet, rfl, ⟨h.nonempty, fun s hs => ?_⟩, fun _ hr => by cases hr⟩
    obtain rfl := Progress.running.inj hs
    exact ⟨rfl, Session.engaged_start h.nonempty old world wall now⟩
  | goOn s hp =>
    obtain ⟨hjob, hnext, hasked⟩ := hmoves hp
    refine ⟨hasked, rfl, ⟨h.nonempty, fun s' hs' => ?_⟩, fun _ hr => by cases hr⟩
    obtain rfl := Progress.running.inj hs'
    exact ⟨hjob, hnext⟩
  | report s r hp hr =>
    obtain ⟨hjob, hnext, more, hmore⟩ := hmoves hp
    refine ⟨⟨more, hmore⟩, rfl, (h.rest fun _ hs => by cases hs).more more hmore, ?_⟩
    intro r' hr'
    obtain rfl := Option.some.inj hr'
    obtain ⟨-, hrelay, htarget, -⟩ := Session.of_report? hr
    rw [Session.relay, hjob] at hrelay
    rw [hjob] at htarget
    exact ⟨hrelay, htarget, hnext.report hr⟩
  | crash s hp =>
    obtain ⟨-, -, more, hmore⟩ := hmoves hp
    exact ⟨⟨more, hmore⟩, rfl, (h.rest fun _ hs => by cases hs).more more hmore,
      fun _ hr => by cases hr⟩
  | rest => exact ⟨hquiet, rfl, h, fun _ hr => by cases hr⟩

end Task

namespace Coordinator

/-- How the sessions of a cycle and its ledger stand at any time. -/
structure Exact (before : Watermarks) (old : World) (now : Nat) (jobs : List Job)
    (state : Dispatch × Ledger) : Prop where
  asked : ∃ more, state.1.world.network.asked = more ++ old.network.asked
  tasks : ∀ t ∈ state.1.tasks, t.job ∈ jobs ∧ t.Engaged old state.1.world
  reports : ∀ r ∈ state.2.sessions, ∃ job ∈ jobs, r.Tells old state.1.world job
  ledger : state.2.Exact before now

variable {before : Watermarks} {old : World} {now : Nat} {jobs : List Job}

/-- To note a report about a job keeps the ledger exact. -/
theorem Exact.note {d : Dispatch} {l : Ledger} (h : Exact before old now jobs (d, l))
    (hjobs : ∀ job ∈ jobs, job.target.upto = now) {r : Report} {job : Job} (hj : job ∈ jobs)
    (hr : r.Tells old d.world job) (control : Control) (instant : Nat) :
    Exact before old now jobs (d, l.noteAt control instant r) := by
  refine ⟨h.asked, h.tasks, ?_, h.ledger.noteAt ?_ control instant⟩
  · intro r' hr'
    rw [Ledger.sessions_noteAt] at hr'
    rcases List.mem_append.mp hr' with hr' | hr'
    · exact h.reports r' hr'
    · obtain rfl := List.mem_singleton.mp hr'
      exact ⟨job, hj, hr⟩
  · rw [hr.target]
    exact hjobs job hj

/-- A move of a task keeps what the others and the reports say. -/
theorem Exact.move {d next : Dispatch} {l : Ledger} {report : Option Report}
    (h : Exact before old now jobs (d, l)) (hn : d.step? = some (next, report)) :
    Exact before old now jobs (next, l) ∧
      ∀ r, report = some r → ∃ job ∈ jobs, r.Tells old next.world job := by
  obtain ⟨place, task, instant, world, task', worker, htask, hgoes, rfl⟩ :=
    Dispatch.step?_goes hn
  obtain ⟨hjob, hengaged⟩ := h.tasks task (List.mem_of_getElem? htask)
  obtain ⟨⟨more, hmore⟩, hkept, hnext, hreport⟩ := hengaged.goes h.asked hgoes
  generalize hmoved : Dispatch.release _ worker = moved
  have hnet : moved.world.network = world.network := by
    rw [← hmoved]
    exact Dispatch.network_release _ worker
  have htasks : moved.tasks = d.tasks.set place task' := by
    rw [← hmoved]
    exact Dispatch.tasks_release _ worker
  have hsame : moved.world.network.asked = [] ++ world.network.asked := by rw [hnet]; rfl
  have hgrown : moved.world.network.asked = more ++ d.world.network.asked := by rw [hnet, hmore]
  constructor
  · refine ⟨?_, ?_, ?_, h.ledger⟩
    · obtain ⟨since, hsince⟩ := h.asked
      refine ⟨more ++ since, ?_⟩
      rw [hgrown, hsince, List.append_assoc]
    · rw [htasks]
      intro t ht
      rcases List.mem_or_eq_of_mem_set ht with ht | rfl
      · exact ⟨(h.tasks t ht).1, (h.tasks t ht).2.more _ hgrown⟩
      · exact ⟨hkept ▸ hjob, hnext.more _ hsame⟩
    · intro r hr
      obtain ⟨job, hj, htells⟩ := h.reports r hr
      exact ⟨job, hj, htells.more _ hgrown⟩
  · intro r hr
    exact ⟨task.job, hjob, (hreport r hr).more _ hsame⟩

theorem Exact.step {d next : Dispatch} {l : Ledger} {report : Option Report}
    (h : Exact before old now jobs (d, l)) (hjobs : ∀ job ∈ jobs, job.target.upto = now)
    (control : Control) :
    d.step? = some (next, report) →
      Exact before old now jobs
        (next, match report with | some r => l.noteAt control next.clock r | none => l) := by
  intro hn
  obtain ⟨hmove, hreport⟩ := h.move hn
  cases report with
  | none => exact hmove
  | some r =>
    obtain ⟨job, hj, hr⟩ := hreport r rfl
    exact hmove.note hjobs hj hr control next.clock

/-- A cycle over jobs that go up to the present second begins with an exact ledger. -/
theorem exact_begun (c : Coordinator) (wall : UInt64)
    (hjobs : ∀ job ∈ jobs, job.target.since ≤ now ∧ job.target.upto = now) :
    Exact c.watermarks c.world now jobs (c.begun wall jobs) := by
  have hupto : ∀ job ∈ jobs, job.target.upto = now := fun job hj => (hjobs job hj).2
  refine begun_keeps (Exact c.watermarks c.world now jobs) ?_ ?_
  · refine ⟨⟨[], rfl⟩, ?_, fun r hr => (by cases hr), Ledger.exact_start ..⟩
    intro t ht
    obtain ⟨hj, hrest⟩ := Dispatch.mem_tasks_begin ht
    obtain ⟨hsince, hnow⟩ := hjobs _ hj
    exact ⟨hj, hnow.symm ▸ hsince, fun s hs => absurd hs (hrest s)⟩
  · intro job hj d l h
    exact h.note hupto hj (Report.tells_notStarted ..) c.control c.clock

/-- A whole such cycle keeps its ledger exact. -/
theorem exact_cycle (c : Coordinator) (wall : UInt64)
    (hjobs : ∀ job ∈ jobs, job.target.since ≤ now ∧ job.target.upto = now) :
    Exact c.watermarks c.world now jobs
      ((c.begun wall jobs).1.run (Ledger.noteAt c.control) (c.begun wall jobs).2) :=
  Dispatch.run_keeps _
    (fun _ _ _ _ hn h => h.step (fun job hj => (hjobs job hj).2) c.control hn) _ _
    (c.exact_begun wall hjobs)

/-- **The sessions of a cycle are those of a trail to its end.** -/
theorem cycle_trail (c : Coordinator) (wall : UInt64) (jobs : List Job) :
    let begun := Dispatch.begin_ jobs c.config.workers c.config.sessionsPerWorker c.pause c.refused
      c.control wall c.clock c.world
    let ended := (c.begun wall jobs).1.run (Ledger.noteAt c.control) (c.begun wall jobs).2
    ∃ acts, Dispatch.Trail begun.1 acts ended.1 ∧ ended.1.step? = none ∧
      ended.2.sessions = begun.2 ++ Dispatch.reports acts := by
  intro begun ended
  obtain ⟨acts, htrail, hend, hsessions⟩ :=
    Dispatch.Trail.run (Ledger.noteAt c.control) Ledger.sessions
      (fun l now r => l.sessions_noteAt c.control now r)
      (.start : Dispatch.Trail (c.begun wall jobs).1 [] _) (c.begun wall jobs).2
  rw [List.nil_append] at htrail
  refine ⟨acts, htrail, hend, hsessions.trans (congrArg (· ++ _) ?_)⟩
  exact (Ledger.sessions_noteAll ..).trans (List.nil_append _)

/-- Only a coordinator that is idle, and whose cycle can be planned, has a report. -/
theorem of_result_ok {c : Coordinator} {wall : UInt64} {report : CycleReport}
    (h : (c.runCycle wall).result = .ok report) :
    c.state.refusal? = none ∧ ∃ relays, c.directory.listEligible = .ok relays ∧
      plan c.config c.directory c.watermarks wall = .ok (relays.map (c.jobFor wall)) := by
  cases hs : c.state.refusal? with
  | some fault =>
    simp only [runCycle, hs] at h
    cases h
  | none =>
    refine ⟨rfl, ?_⟩
    rcases c.plan_cases wall with ⟨-, fault, hp⟩ | ⟨-, relays, hl, hp⟩
    · simp only [runCycle, hs, hp] at h
      cases h
    · exact ⟨relays, hl, hp⟩

/-- What a cycle over these relays has made of a coordinator, and what it reports. -/
structure Transition (c : Coordinator) (wall : UInt64) (relays : List Relay)
    (report : CycleReport) (after : Coordinator) : Prop where
  planned : plan c.config c.directory c.watermarks wall = .ok (relays.map (c.jobFor wall))
  nonempty : ∀ relay ∈ relays, (c.jobFor wall relay).target.isEmpty = false
  sessions : ∀ r ∈ report.sessions, ∃ relay ∈ relays,
    r.Tells c.world after.world (c.jobFor wall relay)
  /-- The reports are those of the jobs that were refused at the beginning, and what the tasks of the
  others have reported until all were over. -/
  reported :
    let jobs := relays.map (c.jobFor wall)
    let begun := Dispatch.begin_ jobs c.config.workers c.config.sessionsPerWorker c.pause c.refused
      c.control wall c.clock c.world
    ∃ acts ended, Dispatch.Trail begun.1 acts ended ∧ ended.world = after.world ∧
      Dispatch.Settled jobs c.config.workers c.refused begun acts ended ∧
      report.sessions = begun.2 ++ Dispatch.reports acts
  same : after.watermarks = { c.watermarks with store := after.watermarks.store }
  moved : ∀ relay, Ledger.Confirms c.watermarks report.sessions relay →
    after.watermarks.store.get? relay =
        some (raised (c.watermarks.store.get? relay) wall.toNat) ∧
      report.committed.get? relay = some wall.toNat
  kept : ∀ relay, ¬ Ledger.Confirms c.watermarks report.sessions relay →
    after.watermarks.store.get? relay = c.watermarks.store.get? relay ∧
      report.committed.get? relay = none
  outside : ∀ relay, (∀ listed ∈ relays, listed.id ≠ relay) →
    after.watermarks.store.get? relay = c.watermarks.store.get? relay ∧
      report.committed.get? relay = none

/-- **A cycle raises the watermarks of the relays that it has drained to the second at which it was
planned, and no others. One that cannot be planned changes nothing.** What it goes by are the reports
of its tasks, one for each that was not torn down. -/
theorem runCycle_transition (c : Coordinator) (wall : UInt64) :
    let ran := c.runCycle wall
    match ran.result with
    | .error _ =>
      ran.coordinator = c ∧
        (c.state = .idle → c.Unplannable ∧ ran.notices = [.entered .running, .entered .idle])
    | .ok report =>
      c.state = .idle ∧ ¬ c.Unplannable ∧
        ∃ relays, c.directory.listEligible = .ok relays ∧
          c.Transition wall relays report ran.coordinator := by
  intro ran
  cases hs : c.state.refusal? with
  | some fault =>
    have hran : ran = { coordinator := c, notices := [], result := .error fault } := by
      simp only [ran, runCycle, hs]
    rw [hran]
    refine ⟨rfl, fun hidle => ?_⟩
    rw [hidle] at hs
    cases hs
  | none =>
    rcases c.plan_cases wall with ⟨hu, fault, hp⟩ | ⟨hu, relays, hl, hp⟩
    · have hran : ran = Ran.mk c [.entered .running, .entered .idle] (.error fault) := by
        simp only [ran, runCycle, hs, hp]
      rw [hran]
      exact ⟨rfl, fun _ => ⟨hu, rfl⟩⟩
    · obtain ⟨hworld, hmarks⟩ := runCycle_of_plan hs hp rfl
      obtain ⟨report, hreport, hsessions, hcommitted⟩ := result_of_plan hs hp rfl
      have hjobs : ∀ job ∈ relays.map (c.jobFor wall),
          job.target.since ≤ wall.toNat ∧ job.target.upto = wall.toNat := by
        intro job hj
        obtain ⟨relay, -, rfl⟩ := List.mem_map.mp hj
        exact ⟨Nat.min_le_right .., rfl⟩
      have hexact := c.exact_cycle wall hjobs
      obtain ⟨acts, htrail, hend, hreports⟩ := c.cycle_trail wall (relays.map (c.jobFor wall))
      generalize (c.begun wall (relays.map (c.jobFor wall))).1.run _ _ = ended at *
      have hall : c.Transition wall relays report ran.coordinator := {
        planned := hp
        nonempty := fun relay _ => Window.isEmpty_eq_false_iff.mpr (Nat.min_le_right ..)
        sessions := by
          intro r hr
          rw [hsessions] at hr
          obtain ⟨job, hj, htells⟩ := hexact.reports r hr
          obtain ⟨relay, hm, rfl⟩ := List.mem_map.mp hj
          exact ⟨relay, hm, hworld ▸ htells⟩
        reported :=
          ⟨acts, ended.1, htrail, hworld.symm, htrail.settled hend, hsessions.trans hreports⟩
        same := by
          rw [hmarks]
          exact hexact.ledger.same
        moved := by
          rw [hmarks, hsessions, hcommitted]
          exact hexact.ledger.moved
        kept := by
          rw [hmarks, hsessions, hcommitted]
          exact hexact.ledger.kept
        outside := by
          intro relay hout
          rw [hmarks, hcommitted]
          refine hexact.ledger.kept relay ?_
          -- every report is one of a listed relay
          rintro ⟨⟨r, hr, hrelay, -⟩, -⟩
          obtain ⟨job, hj, htells⟩ := hexact.reports r hr
          obtain ⟨listed, hm, rfl⟩ := List.mem_map.mp hj
          exact hout listed hm (htells.relay.symm.trans hrelay) }
      rw [hreport]
      refine ⟨?_, hu, relays, hl, hall⟩
      cases hstate : c.state with
      | idle => rfl
      | _ =>
        rw [hstate] at hs
        cases hs

end Coordinator

end Harvest
