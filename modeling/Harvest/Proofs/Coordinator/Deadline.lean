import Harvest.Proofs.Coordinator.Shutdown
import Harvest.Proofs.Coordinator.Reports
import Harvest.Proofs.Dispatch.Deadline

/-! No cycle outlives its deadline, nor the grace that a request to shut down leaves it. Sessions
that are still at work at the deadline are cut off at that instant, whatever they wait for: the
cycle is over then, its state says so, and none of their watermarks has moved. -/

namespace Harvest

namespace Ledger

variable {l later : Ledger} {control : Control}

theorem stopping_of_heed {now : Nat} (h : (l.heed control now).stopping = true) :
    l.stopping = true ∨ control.isShutDown now = true := by
  rw [heed] at h
  split at h
  · rename_i hc
    exact .inr hc.1
  · exact .inl h

theorem stopping_noteAt (l : Ledger) (control : Control) (now : Nat) (r : Report) :
    (l.noteAt control now r).stopping = (l.heed control now).stopping := by
  simp only [noteAt, note, commit]
  split
  · rfl
  · split <;> rfl

/-- Reports that are not drained move no watermark. -/
theorem Exact.unmoved {before : Watermarks} {now : Nat} (h : l.Exact before now)
    (h' : later.Exact before now) {late : List Report} (hs : later.sessions = l.sessions ++ late)
    (hlate : ∀ r ∈ late, r.outcome ≠ .drained) (relay : RelayId) :
    later.watermarks.store.get? relay = l.watermarks.store.get? relay ∧
      later.committed.get? relay = l.committed.get? relay := by
  have hconf : Confirms before later.sessions relay ↔ Confirms before l.sessions relay := by
    rw [hs]
    constructor
    · rintro ⟨⟨r, hr, hrelay, hd⟩, haccepts⟩
      rcases List.mem_append.mp hr with hr | hr
      · exact ⟨⟨r, hr, hrelay, hd⟩, haccepts⟩
      · exact absurd hd (hlate r hr)
    · rintro ⟨⟨r, hr, hdrained⟩, haccepts⟩
      exact ⟨⟨r, List.mem_append_left _ hr, hdrained⟩, haccepts⟩
  by_cases hc : Confirms before l.sessions relay
  · obtain ⟨hstore, hcommitted⟩ := h.moved relay hc
    obtain ⟨hstore', hcommitted'⟩ := h'.moved relay (hconf.mpr hc)
    exact ⟨hstore'.trans hstore.symm, hcommitted'.trans hcommitted.symm⟩
  · obtain ⟨hstore, hcommitted⟩ := h.kept relay hc
    obtain ⟨hstore', hcommitted'⟩ := h'.kept relay (mt hconf.mp hc)
    exact ⟨hstore'.trans hstore.symm, hcommitted'.trans hcommitted.symm⟩

end Ledger

theorem Control.isShutDown_mono {c : Control} {now later : Nat} (h : c.isShutDown now = true)
    (hle : now ≤ later) : c.isShutDown later = true := by
  rw [isShutDown, Option.any_eq_true] at h ⊢
  obtain ⟨s, hs, hnow⟩ := h
  exact ⟨s, hs, decide_eq_true (Nat.le_trans (of_decide_eq_true hnow) hle)⟩

namespace Coordinator

variable {c : Coordinator} {wall : UInt64} {jobs : List Job}

/-! ## The end of a cycle -/

/-- When the sessions of a cycle are cancelled. -/
theorem cancelAt_control (c : Coordinator) :
    ∃ limit, c.control.cancelAt = some limit ∧ c.clock ≤ limit ∧
      limit ≤ c.clock + c.config.cycleDeadline ∧
      ∀ s, c.shutdownAt = some s → limit ≤ max s c.clock + c.config.shutdownGrace := by
  refine ⟨_, rfl, ?_⟩
  cases c.shutdownAt with
  | none => exact ⟨Nat.le_add_right .., Nat.le_refl _, fun s hs => by cases hs⟩
  | some s =>
    dsimp only
    refine ⟨by omega, Nat.min_le_left .., fun s' hs' => ?_⟩
    obtain rfl := Option.some.inj hs'
    exact Nat.min_le_right ..

/-- A ledger says that the cycle is to stop only if there was a request by then. -/
theorem stopping_cycle (c : Coordinator) (wall : UInt64) (jobs : List Job) :
    let ended := (c.begun wall jobs).1.run (Ledger.noteAt c.control) (c.begun wall jobs).2
    ended.2.stopping = true → c.control.isShutDown ended.1.clock = true := by
  let keeps (state : Dispatch × Ledger) : Prop := c.clock ≤ state.1.clock ∧
    (state.2.stopping = true → c.control.isShutDown state.1.clock = true)
  have hnote {d : Dispatch} {l : Ledger} {now : Nat} (r : Report) (h : keeps (d, l))
      (hle : now ≤ d.clock) : keeps (d, l.noteAt c.control now r) := by
    refine ⟨h.1, fun hs => ?_⟩
    rw [Ledger.stopping_noteAt] at hs
    rcases Ledger.stopping_of_heed hs with hs | hs
    · exact h.2 hs
    · exact Control.isShutDown_mono hs hle
  refine (cycle_keeps keeps ⟨Nat.le_refl _, fun hs => by cases hs⟩ ?_ ?_).2
  · intro job _ d l h
    exact hnote _ h h.1
  · intro d l next report hn h
    obtain ⟨place, task, now, -, hd, rfl, -⟩ := Dispatch.step?_eq_moved hn
    have hclock : d.clock ≤ (d.moved place task now).clock := by
      rw [(Dispatch.moved_keeps ..).2.2.2]
      exact (Dispatch.of_due? hd).2
    have hmoved : keeps (d.moved place task now, l) :=
      ⟨Nat.le_trans h.1 hclock, fun hs => Control.isShutDown_mono (h.2 hs) hclock⟩
    cases report with
    | none => exact hmoved
    | some r => exact hnote r hmoved (Nat.le_refl _)

/-- What a cycle says of itself: whether there was a request to shut down before its end, and else
whether it has ended before its deadline with all reports. -/
theorem state_cycle (c : Coordinator) (wall : UInt64) (jobs : List Job) :
    let ended := (c.begun wall jobs).1.run (Ledger.noteAt c.control) (c.begun wall jobs).2
    (c.execute wall jobs).result.state =
      if c.control.isShutDown ended.1.clock then .stopped
      else if c.clock + c.config.cycleDeadline ≤ ended.1.clock ∨
          ended.2.sessions.length < jobs.length then .incomplete
      else .completed := by
  intro ended
  rw [state_execute, conclude]
  by_cases hs : c.control.isShutDown ended.1.clock = true
  · rw [if_pos (Ledger.stopping_heed _ hs), if_pos hs]
  · have hrest : ¬ (ended.2.heed c.control ended.1.clock).stopping = true := by
      intro hstop
      rcases Ledger.stopping_of_heed hstop with hstop | hstop
      · exact hs (c.stopping_cycle wall jobs hstop)
      · exact hs hstop
    rw [if_neg hrest, if_neg hs, Ledger.sessions_heed]

theorem elapsed_execute (c : Coordinator) (wall : UInt64) (jobs : List Job) :
    (c.execute wall jobs).result.elapsed =
      ((c.begun wall jobs).1.run (Ledger.noteAt c.control) (c.begun wall jobs).2).1.clock -
        c.clock := rfl

/-- **No cycle goes on after its sessions are cancelled.** -/
theorem elapsed_le (c : Coordinator) (wall : UInt64) (jobs : List Job) :
    (c.execute wall jobs).result.elapsed ≤ c.config.cycleDeadline ∧
      ∀ s, c.shutdownAt = some s → (c.execute wall jobs).result.elapsed ≤
        min c.config.cycleDeadline (s - c.clock + c.config.shutdownGrace) := by
  obtain ⟨limit, hcancel, hstart, hdeadline, hgrace⟩ := c.cancelAt_control
  obtain ⟨acts, htrail, -⟩ := c.cycle_trail wall jobs
  have hclock := htrail.clock_le hcancel hstart
  rw [elapsed_execute]
  refine ⟨by omega, fun s hs => ?_⟩
  have hlimit := hgrace s hs
  omega

/-! ## At the deadline -/

/-- The sessions of a cycle at its deadline, when all that comes before that instant is done. -/
def atDeadline (c : Coordinator) (wall : UInt64) (jobs : List Job) : Dispatch × Ledger :=
  (c.begun wall jobs).1.runTo (Ledger.noteAt c.control) (c.clock + c.config.cycleDeadline)
    (c.begun wall jobs).2

/-- The end of a cycle whose deadline has found sessions at work. -/
structure Overrun (c : Coordinator) (halted : Dispatch × Ledger) (report : CycleReport)
    (after : Watermarks) : Prop where
  /-- It is over at once. -/
  elapsed : report.elapsed = c.config.cycleDeadline
  stopped : (∃ s, c.shutdownAt = some s ∧ s ≤ c.clock + c.config.cycleDeadline) →
    report.state = .stopped
  incomplete : (∀ s, c.shutdownAt = some s → c.clock + c.config.cycleDeadline < s) →
    report.state = .incomplete
  /-- Each of these sessions is reported, and no report says drained any more. -/
  late : ∃ late, report.sessions = halted.2.sessions ++ late ∧
    (∀ r ∈ late, ∃ reason, r.outcome = .abandoned reason) ∧
    ∀ t ∈ halted.1.tasks, t.isOver = false →
      ∃ r ∈ late, r.about = (t.job.relay.id, t.job.target)
  /-- From the deadline on no watermark moves. -/
  unmoved : ∀ relay, after.store.get? relay = halted.2.watermarks.store.get? relay ∧
    report.committed.get? relay = halted.2.committed.get? relay
  /-- A relay whose sessions, one for each time that it is listed, are all at work has the watermark
  that it had before the cycle. -/
  kept : ∀ relay, (∀ t ∈ halted.1.tasks, t.job.relay.id = relay → t.isOver = false) →
    after.store.get? relay = c.watermarks.store.get? relay ∧ report.committed.get? relay = none

/-- A cycle comes to its deadline by moves of its tasks, and nothing from before is left to do. -/
theorem trail_atDeadline (c : Coordinator) (wall : UInt64) (jobs : List Job) :
    (∃ before, Dispatch.Trail (c.begun wall jobs).1 before (c.atDeadline wall jobs).1) ∧
      (c.atDeadline wall jobs).1.Awaits (c.clock + c.config.cycleDeadline) :=
  Dispatch.Trail.runTo (Ledger.noteAt c.control) (c.clock + c.config.cycleDeadline)
    (.start : Dispatch.Trail (c.begun wall jobs).1 [] _)
    (.inr fun _ ht => (Dispatch.mem_tasks_begin ht).2) (c.begun wall jobs).2

/-- No session of the cycle waits for something from before its deadline. -/
theorem halts_atDeadline (c : Coordinator) (wall : UInt64) (jobs : List Job) :
    ∀ t ∈ (c.atDeadline wall jobs).1.tasks, t.Halts (c.atDeadline wall jobs).1.control
      (c.clock + c.config.cycleDeadline) := by
  intro t ht s hs
  obtain ⟨⟨before, hbefore⟩, hawaits⟩ := c.trail_atDeadline wall jobs
  obtain ⟨place, hplace⟩ := List.mem_iff_getElem?.mp ht
  obtain ⟨-, -, -, hrun⟩ := hbefore.wireAt Dispatch.regular_begin
    (fun t ht => (Dispatch.mem_tasks_begin ht).2) hplace
  obtain ⟨halive, -, hjob⟩ := hrun s hs
  exact ⟨halive, hjob, hawaits.sessions t ht s hs⟩

/-- A cycle begins with the reports of the tasks that are over from the beginning. -/
theorem noted_begun (c : Coordinator) (wall : UInt64) (jobs : List Job) :
    (c.begun wall jobs).2.sessions.map Report.about =
      (c.begun wall jobs).1.tasks.filterMap Task.answered? := by
  have hrefused : (c.begun wall jobs).2.sessions = (Dispatch.begin_ jobs c.config.workers
      c.config.sessionsPerWorker c.pause c.refused c.control wall c.clock c.world).2 :=
    (Ledger.sessions_noteAll ..).trans (List.nil_append _)
  rw [hrefused]
  exact Dispatch.answered_begin

/-- All that is noted by the deadline was reported by tasks that are over. -/
theorem over_of_noted (c : Coordinator) (wall : UInt64) (jobs : List Job) {r : Report}
    (hr : r ∈ (c.atDeadline wall jobs).2.sessions) :
    ∃ t ∈ (c.atDeadline wall jobs).1.tasks, t.isOver = true ∧ t.job.relay.id = r.relay := by
  obtain ⟨acts, htrail, hsessions⟩ := Dispatch.Trail.noted_runTo (Ledger.noteAt c.control)
    (c.clock + c.config.cycleDeadline) Ledger.sessions
    (fun l now r => l.sessions_noteAt c.control now r) (c.begun wall jobs).1 (c.begun wall jobs).2
  have hperm := htrail.reports_perm Dispatch.regular_begin
    fun t ht => (Dispatch.mem_tasks_begin ht).2
  rw [← noted_begun, ← List.map_append, ← hsessions] at hperm
  obtain ⟨t, ht, hanswered⟩ :=
    List.mem_filterMap.mp (hperm.mem_iff.mp (List.mem_map_of_mem hr))
  obtain ⟨hover, habout⟩ := Task.of_answered? hanswered
  exact ⟨t, ht, hover, (congrArg Prod.fst habout).symm⟩

/-- What is left of a cycle whose deadline finds sessions at work: it ends at that instant, and all
that is still reported says abandoned. -/
theorem late_at_deadline (ho : ∃ t ∈ (c.atDeadline wall jobs).1.tasks, t.isOver = false) :
    let halted := c.atDeadline wall jobs
    let ended := (c.begun wall jobs).1.run (Ledger.noteAt c.control) (c.begun wall jobs).2
    ended.1.clock = c.clock + c.config.cycleDeadline ∧
      ∃ late, ended.2.sessions = halted.2.sessions ++ late ∧
        (∀ r ∈ late, ∃ reason, r.outcome = .abandoned reason) ∧
        ∀ t ∈ halted.1.tasks, t.isOver = false →
          ∃ r ∈ late, r.about = (t.job.relay.id, t.job.target) := by
  intro halted ended
  obtain ⟨limit, hcancel, hstart, hlimit, -⟩ := c.cancelAt_control
  obtain ⟨⟨before, hbefore⟩, hawaits⟩ := c.trail_atDeadline wall jobs
  obtain ⟨after, hafter, hover, hreports⟩ :=
    Dispatch.Trail.run (Ledger.noteAt c.control) Ledger.sessions
      (fun l now r => l.sessions_noteAt c.control now r) (.start : Dispatch.Trail halted.1 [] _)
      halted.2
  have hended : halted.1.run (Ledger.noteAt c.control) halted.2 = ended := Dispatch.run_runTo ..
  rw [List.nil_append, hended] at hafter
  rw [hended] at hover hreports
  have hregular : halted.1.Regular := hbefore.regular Dispatch.regular_begin
  have hdone := ((hafter.regular hregular).rest hover).1
  obtain ⟨t, ht, hopen⟩ := ho
  have hne : ended.1 ≠ halted.1 := fun he => by
    rw [← he] at ht
    rw [hdone t ht] at hopen
    cases hopen
  have hlate := (hafter.clock_since hawaits.moves).resolve_left hne
  have hcontrol : halted.1.control.cancelAt = some limit := by
    rw [hbefore.keeps.2.1]
    exact hcancel
  have hclock := hafter.clock_le hcontrol (hbefore.clock_le hcancel hstart)
  obtain rfl : limit = c.clock + c.config.cycleDeadline := by omega
  obtain ⟨-, habandoned, htold⟩ :=
    hafter.cut hcontrol hawaits.moves (c.halts_atDeadline wall jobs)
  refine ⟨Nat.le_antisymm hclock hlate, _, hreports, habandoned, fun t ht hopen => ?_⟩
  obtain ⟨place, hplace⟩ := List.mem_iff_getElem?.mp ht
  rcases htold place t hplace with hsame | hr
  · rw [hdone t (List.mem_of_getElem? hsame)] at hopen
    cases hopen
  · exact hr

/-- A cycle is exact at its deadline as well. -/
theorem exact_atDeadline (c : Coordinator) (wall : UInt64) {now : Nat}
    (hjobs : ∀ job ∈ jobs, job.target.since ≤ now ∧ job.target.upto = now) :
    Exact c.watermarks c.world now jobs (c.atDeadline wall jobs) :=
  Dispatch.runTo_keeps _
    (fun _ _ _ _ hn h => h.step (fun job hj => (hjobs job hj).2) c.control hn) _ _
    (c.exact_begun wall hjobs)

/-- **What a cycle comes to whose deadline finds sessions at work.** -/
theorem overrun (hs : c.state.refusal? = none)
    (hp : plan c.config c.directory c.watermarks wall = .ok jobs)
    (ho : ∃ t ∈ (c.atDeadline wall jobs).1.tasks, t.isOver = false) :
    c.Overrun (c.atDeadline wall jobs) (c.execute wall jobs).result
      (c.runCycle wall).coordinator.watermarks := by
  obtain ⟨hclock, late, hlate, habandoned, htold⟩ := late_at_deadline ho
  have hstate := c.state_cycle wall jobs
  have hjobs (job : Job) (hj : job ∈ jobs) := c.target_of_plan hp hj
  have hexact := c.exact_atDeadline wall hjobs
  have hunmoved := hexact.ledger.unmoved (c.exact_cycle wall hjobs).ledger hlate fun r hr hd => by
    obtain ⟨reason, hreason⟩ := habandoned r hr
    rw [hd] at hreason
    cases hreason
  obtain ⟨-, hmarks⟩ := runCycle_of_plan hs hp rfl
  obtain ⟨report, hreport, hsessions, hcommitted⟩ := result_of_plan hs hp rfl
  obtain rfl := Except.ok.inj (hreport.symm.trans (result_eq_execute hs hp))
  simp only [hclock] at hstate
  rw [hmarks]
  constructor
  case elapsed => rw [elapsed_execute, hclock, Nat.add_sub_cancel_left]
  case stopped =>
    rintro ⟨s, hs, hle⟩
    have hshut : c.control.isShutDown (c.clock + c.config.cycleDeadline) = true := by
      rw [Control.isShutDown, Coordinator.control, hs]
      exact decide_eq_true hle
    rw [hstate, if_pos hshut]
  case incomplete =>
    intro hlater
    have hopen : ¬ c.control.isShutDown (c.clock + c.config.cycleDeadline) = true := by
      intro hshut
      rw [Control.isShutDown, Option.any_eq_true] at hshut
      obtain ⟨s, hs, hle⟩ := hshut
      exact absurd (of_decide_eq_true hle) (Nat.not_le.mpr (hlater s hs))
    rw [hstate, if_neg hopen, if_pos (.inl (Nat.le_refl _))]
  case late => exact ⟨late, hsessions.trans hlate, habandoned, htold⟩
  case unmoved =>
    intro relay
    rw [hcommitted]
    exact hunmoved relay
  case kept =>
    intro relay hopen
    have hnot : ¬ Ledger.Confirms c.watermarks (c.atDeadline wall jobs).2.sessions relay := by
      rintro ⟨⟨r, hr, hrelay, -⟩, -⟩
      obtain ⟨t, ht, hover, hid⟩ := c.over_of_noted wall jobs hr
      rw [hopen t ht (hid.trans hrelay)] at hover
      cases hover
    obtain ⟨hstore, hnone⟩ := hexact.ledger.kept relay hnot
    obtain ⟨hstore', hcommitted'⟩ := hunmoved relay
    rw [hcommitted]
    exact ⟨hstore'.trans hstore, hcommitted'.trans hnone⟩

/-- **A cycle never outlives its deadline.** It takes no longer than its deadline allows, and after
a request to shut down no longer than the grace. If the deadline finds sessions at work the cycle is
over at that instant: it is incomplete, or stopped if there was such a request before, and no
session that was at work moves its watermark. -/
theorem cycle_within_deadline {report : CycleReport}
    (h : (c.runCycle wall).result = .ok report) :
    report.elapsed ≤ c.config.cycleDeadline ∧
      (∀ s, c.shutdownAt = some s →
        report.elapsed ≤ min c.config.cycleDeadline (s - c.clock + c.config.shutdownGrace)) ∧
      ∃ relays, c.directory.listEligible = .ok relays ∧
        let halted := c.atDeadline wall (relays.map (c.jobFor wall))
        (∃ t ∈ halted.1.tasks, t.isOver = false) →
          c.Overrun halted report (c.runCycle wall).coordinator.watermarks := by
  obtain ⟨hs, relays, hl, hp⟩ := of_result_ok h
  obtain rfl := Except.ok.inj (h.symm.trans (result_eq_execute hs hp))
  obtain ⟨hdeadline, hgrace⟩ := c.elapsed_le wall (relays.map (c.jobFor wall))
  exact ⟨hdeadline, hgrace, relays, hl, overrun hs hp⟩

/-- One worker with one session at a time: at the deadline one relay is drained, one has not
answered yet, and one waits for its turn. -/
theorem cycle_within_deadline_cut :
    let relay (id : String) : Relay := { id }
    let c : Coordinator :=
      { config := { workers := 1, sessionsPerWorker := 1, cycleDeadline := 4 }
        directory := .memory { relays := [relay "done", relay "open", relay "late"] }
        watermarks := { store := .memory {} }
        world :=
          { network := { peers := [("done", .memory { events := [], latency := 1 }),
              ("open", .memory { events := [], latency := 9 }),
              ("late", .memory { events := [] })] }
            sink := { depot := .memory {} } } }
    let halted := c.atDeadline 5 ([relay "done", relay "open", relay "late"].map (c.jobFor 5))
    halted.1.tasks.map (fun t => (t.job.relay.id, t.job.target, t.isOver)) =
        [("done", ⟨0, 5⟩, true), ("open", ⟨0, 5⟩, false), ("late", ⟨0, 5⟩, false)] ∧
      ∃ report, (c.runCycle 5).result = .ok report ∧ report.elapsed = 4 ∧
        report.state = .incomplete ∧
        (∃ r ∈ report.sessions, r.about = ("open", ⟨0, 5⟩) ∧ ∃ reason,
          r.outcome = .abandoned reason) ∧
        report.committed.get? "done" = some 5 ∧ report.committed.get? "open" = none := by
  intro relay c halted
  have hplan : plan c.config c.directory c.watermarks 5 =
      .ok ([relay "done", relay "open", relay "late"].map (c.jobFor 5)) := rfl
  have hhalts : ∃ state,
      Nat.repeat (Dispatch.advance (Ledger.noteAt c.control)) 12
          (c.begun 5 ([relay "done", relay "open", relay "late"].map (c.jobFor 5))) = state ∧
        state.1.clock < 4 ∧ (state.1.step?.all fun next => 4 ≤ next.1.clock) = true ∧
        state.1.tasks.map (fun t => (t.job.relay.id, t.job.target, t.isOver)) =
          [("done", ⟨0, 5⟩, true), ("open", ⟨0, 5⟩, false), ("late", ⟨0, 5⟩, false)] ∧
        state.2.committed.get? "done" = some 5 := by
    refine ⟨_, rfl, ?_⟩
    clear hplan halted
    revert relay c
    decide +kernel
  obtain ⟨state, hstate, hclock, hlate, htasks, hcommitted⟩ := hhalts
  have hhalted : halted = state := by
    refine Dispatch.runTo_eq_repeat hstate hclock fun next report hn => ?_
    have hle : 4 ≤ next.clock := by simpa [hn] using hlate
    exact hle
  rw [← hhalted] at htasks hcommitted
  have hreport := result_eq_execute (c := c) rfl hplan
  obtain ⟨-, -, relays, hl, hover⟩ := cycle_within_deadline hreport
  obtain rfl := Except.ok.inj ((show c.directory.listEligible =
    .ok [relay "done", relay "open", relay "late"] from rfl).symm.trans hl)
  have hmem : ("open", (⟨0, 5⟩ : Window), false) ∈
      halted.1.tasks.map fun t => (t.job.relay.id, t.job.target, t.isOver) := by
    rw [htasks]
    simp
  obtain ⟨t, ht, hopen⟩ := List.mem_map.mp hmem
  obtain ⟨hid, htarget, hrunning⟩ : t.job.relay.id = "open" ∧ t.job.target = ⟨0, 5⟩ ∧
      t.isOver = false := by simpa using hopen
  have hcut := hover ⟨t, ht, hrunning⟩
  obtain ⟨late, hsessions, habandoned, hlast⟩ := hcut.late
  obtain ⟨r, hr, habout⟩ := hlast t ht hrunning
  refine ⟨htasks, _, hreport, hcut.elapsed, hcut.incomplete fun s hs => (by cases hs),
    ⟨r, ?_, ?_, habandoned r hr⟩, ?_, ?_⟩
  · rw [hsessions]
    exact List.mem_append_right _ hr
  · rw [habout, hid, htarget]
  · rw [(hcut.unmoved "done").2]
    exact hcommitted
  · refine (hcut.kept "open" fun other ho hsame => ?_).2
    have hother := List.mem_map_of_mem (f := fun t : Task => (t.job.relay.id, t.job.target,
      t.isOver)) ho
    rw [htasks] at hother
    simp_all

end Coordinator

end Harvest
