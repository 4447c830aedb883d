import Harvest.Proofs.Coordinator.Transition
import Harvest.Proofs.Dispatch.Shutdown

/-! A request to shut down in the course of a cycle. At the instant of the request some sessions
wait, some are at work and some are over. Nothing new is started from then on: who waits is reported
as not started, who is at work winds down, and the watermarks that were committed stay so. -/

namespace Harvest

/-- What was committed by a ledger stays committed by one that has noted more. -/
theorem Ledger.Exact.stays {before : Watermarks} {now : Nat} {l later : Ledger}
    (h : l.Exact before now) (h' : later.Exact before now)
    (hmore : ∀ r ∈ l.sessions, r ∈ later.sessions) {relay : RelayId} {stamp : Nat}
    (hc : l.committed.get? relay = some stamp) :
    later.committed.get? relay = some stamp ∧
      later.watermarks.store.get? relay = l.watermarks.store.get? relay ∧
      ∃ held, l.watermarks.store.get? relay = some held ∧ stamp ≤ held := by
  by_cases hconf : Confirms before l.sessions relay
  · obtain ⟨hstore, hcommitted⟩ := h.moved relay hconf
    obtain rfl := Option.some.inj (hcommitted.symm.trans hc)
    obtain ⟨⟨r, hr, hrelay⟩, haccepts⟩ := hconf
    obtain ⟨hstore', hcommitted'⟩ := h'.moved relay ⟨⟨r, hmore r hr, hrelay⟩, haccepts⟩
    exact ⟨hcommitted', hstore'.trans hstore.symm, _, hstore, le_raised ..⟩
  · rw [(h.kept relay hconf).2] at hc
    cases hc

theorem Config.one_le_maxAttempts {config : Config} (h : config.fault? = none) :
    1 ≤ config.queryRetry.maxAttempts := by
  refine Nat.pos_of_ne_zero fun hz => ?_
  simp only [fault?, hz, true_or, if_true] at h
  repeat' split at h
  all_goals cases h

namespace Coordinator

variable {c : Coordinator} {wall : UInt64} {jobs : List Job} {instant : Nat}

/-- Every planned job goes up to the present second. -/
theorem target_of_plan (c : Coordinator)
    (hp : plan c.config c.directory c.watermarks wall = .ok jobs) {job : Job} (hj : job ∈ jobs) :
    job.target.since ≤ wall.toNat ∧ job.target.upto = wall.toNat := by
  rcases c.plan_cases wall with ⟨-, fault, hfault⟩ | ⟨-, relays, -, hplan⟩
  · rw [hp] at hfault
    cases hfault
  · obtain rfl := Except.ok.inj (hp.symm.trans hplan)
    obtain ⟨relay, -, rfl⟩ := List.mem_map.mp hj
    exact ⟨Nat.min_le_right .., rfl⟩

/-- **A request to shut down starts nothing new.** In whatever order the tasks move before the
instant and after it, at its end each session that waited is reported as not started without having
done anything, and each one at work has asked for no window but the one in hand. The run of the
cycle is one of these orders, and what it has committed by then stays committed. -/
theorem shutdown_winds_down (hf : c.config.fault? = none) (hs : c.state = .idle)
    (hp : plan c.config c.directory c.watermarks wall = .ok jobs)
    (hd : c.shutdownAt = some instant) :
    let begun := c.begun wall jobs
    let halted := begun.1.runTo (Ledger.noteAt c.control) instant begun.2
    let ended := begun.1.run (Ledger.noteAt c.control) begun.2
    (∀ before d after last, Dispatch.Trail begun.1 before d → d.Awaits instant →
      Dispatch.Trail d after last → last.step? = none →
        d.Stops c.config.queryRetry.maxAttempts before after) ∧
    (∃ before after, Dispatch.Trail begun.1 before halted.1 ∧ halted.1.Awaits instant ∧
      Dispatch.Trail halted.1 after ended.1 ∧ ended.1.step? = none ∧
        ended.2.sessions = halted.2.sessions ++ Dispatch.reports after) ∧
    ∃ report, (c.runCycle wall).result = .ok report ∧ report.sessions = ended.2.sessions ∧
      ∀ relay stamp, halted.2.committed.get? relay = some stamp →
        report.committed.get? relay = some stamp ∧
        (c.runCycle wall).coordinator.watermarks.store.get? relay =
          halted.2.watermarks.store.get? relay ∧
        ∃ held, halted.2.watermarks.store.get? relay = some held ∧ stamp ≤ held := by
  intro begun halted ended
  have hidle : c.state.refusal? = none := by rw [hs]; rfl
  have hfresh : ∀ t ∈ begun.1.tasks, t.job ∈ jobs ∧ ∀ s, t.progress ≠ .running s :=
    fun t ht => Dispatch.mem_tasks_begin ht
  have hquiet : ∀ t ∈ begun.1.tasks, ∀ s, t.progress ≠ .running s := fun t ht => (hfresh t ht).2
  have hended : halted.1.run (Ledger.noteAt c.control) halted.2 = ended :=
    Dispatch.run_runTo ..
  obtain ⟨⟨before, hbefore⟩, hawaits⟩ :=
    Dispatch.Trail.runTo (Ledger.noteAt c.control) instant (.start : Dispatch.Trail begun.1 [] _)
      (.inr hquiet) begun.2
  rw [List.nil_append] at hbefore
  obtain ⟨after, hafter, hover, hreports⟩ :=
    Dispatch.Trail.run (Ledger.noteAt c.control) Ledger.sessions
      (fun l now r => l.sessions_noteAt c.control now r) (.start : Dispatch.Trail halted.1 [] _)
      halted.2
  rw [List.nil_append, hended] at hafter
  rw [hended] at hover hreports
  refine ⟨?_, ⟨before, after, hbefore, hawaits, hafter, hover, hreports⟩, ?_⟩
  · intro before d after last hbefore hawaits hafter hover
    refine hbefore.stops Dispatch.regular_begin hquiet hd hawaits hafter hover fun t ht => ?_
    obtain ⟨-, hsettings, -⟩ := of_mem_plan hp (hfresh t ht).1
    rw [hsettings]
    exact Nat.max_eq_right (Config.one_le_maxAttempts hf)
  · obtain ⟨report, hreport, hsessions, hcommitted⟩ := result_of_plan hidle hp rfl
    obtain ⟨-, hmarks⟩ := runCycle_of_plan hidle hp rfl
    refine ⟨report, hreport, hsessions, fun relay stamp hc => ?_⟩
    have hjobs (job : Job) (hj : job ∈ jobs) := c.target_of_plan hp hj
    have hexact : Exact c.watermarks c.world wall.toNat jobs halted :=
      Dispatch.runTo_keeps _
        (fun _ _ _ _ hn h => h.step (fun job hj => (hjobs job hj).2) c.control hn) _ _
        (c.exact_begun wall hjobs)
    have hlast := c.exact_cycle wall hjobs
    rw [hcommitted, hmarks]
    refine hexact.ledger.stays hlast.ledger (fun r hr => ?_) hc
    rw [hreports]
    exact List.mem_append_left _ hr

/-- One worker with one session at a time: when the request comes one relay is drained, one is about
to answer, and one waits for its turn. -/
theorem shutdown_winds_down_waiting :
    let relay (id : String) : Relay := { id }
    let c : Coordinator :=
      { config := { workers := 1, sessionsPerWorker := 1 }
        directory := .memory { relays := [relay "done", relay "open", relay "late"] }
        watermarks := { store := .memory {} }, shutdownAt := some 2
        world :=
          { network := { peers := [("done", .memory { events := [], latency := 1 }),
              ("open", .memory { events := [], latency := 3 }),
              ("late", .memory { events := [] })] }
            sink := { depot := .memory {} } } }
    let jobs := [relay "done", relay "open", relay "late"].map (c.jobFor 5)
    let halted :=
      (c.begun 5 jobs).1.runTo (Ledger.noteAt c.control) 2 (c.begun 5 jobs).2
    halted.1.tasks.map (fun t => (t.isOver, t.isRunning, t.progress.isWaiting)) =
        [(true, false, false), (false, true, false), (false, false, true)] ∧
      (∃ before after, halted.1.Stops 3 before after ∧
        (Dispatch.reports after).map (·.relay) = ["late", "open"]) ∧
      ∃ report, (c.runCycle 5).result = .ok report ∧
        report.sessions.map (fun r => (r.relay, r.outcome, r.stats.queries)) =
          [("done", .drained, 1), ("late", .abandoned .notStarted, 0), ("open", .drained, 1)] ∧
        report.committed.get? "done" = some 5 := by
  intro relay c jobs halted
  have hplan : plan c.config c.directory c.watermarks 5 = .ok jobs := rfl
  have hhalts : ∃ state,
      Nat.repeat (Dispatch.advance (Ledger.noteAt c.control)) 12 (c.begun 5 jobs) = state ∧
        state.1.clock < 2 ∧ (state.1.step?.all fun next => 2 ≤ next.1.clock) = true ∧
        state.1.tasks.map (fun t => (t.isOver, t.isRunning, t.progress.isWaiting)) =
          [(true, false, false), (false, true, false), (false, false, true)] ∧
        state.2.sessions.map (·.relay) = ["done"] ∧
        state.2.committed.get? "done" = some 5 := by
    refine ⟨_, rfl, ?_⟩
    clear hplan halted
    revert relay c jobs
    decide +kernel
  have hends : ∃ state,
      Nat.repeat (Dispatch.advance (Ledger.noteAt c.control)) 14 (c.begun 5 jobs) = state ∧
        state.1.step?.isNone = true ∧
        state.2.sessions.map (fun r => (r.relay, r.outcome, r.stats.queries)) =
          [("done", .drained, 1), ("late", .abandoned .notStarted, 0), ("open", .drained, 1)] := by
    refine ⟨_, rfl, ?_⟩
    clear hplan hhalts halted
    revert relay c jobs
    decide +kernel
  obtain ⟨state, hstate, hclock, hlate, htasks, hnoted, hcommitted⟩ := hhalts
  have hhalted : halted = state := Dispatch.runTo_eq_repeat hstate hclock fun next report hn => by
    simpa [hn] using hlate
  obtain ⟨last, hlast, hover, hsessions⟩ := hends
  have hended := Dispatch.run_eq_repeat hlast (Option.isNone_iff_eq_none.mp hover)
  obtain ⟨hstops, ⟨before, after, hbefore, hawaits, hafter, hrest, hreports⟩, report, hreport,
    hall, hstays⟩ := shutdown_winds_down (c := c) rfl rfl hplan
      (show c.shutdownAt = some 2 from rfl)
  refine ⟨?_, ⟨before, after, hstops before _ after _ hbefore hawaits hafter hrest, ?_⟩, report,
    hreport, ?_, ?_⟩
  · rw [hhalted]
    exact htasks
  · have hrelays := congrArg (List.map Prod.fst) hsessions
    rw [List.map_map] at hrelays
    have hsplit := congrArg (List.map Report.relay) hreports
    rw [hended, List.map_append, show (Dispatch.runTo _ 2 _ _) = state from hhalted, hnoted]
      at hsplit
    exact (List.cons.inj (hsplit.symm.trans hrelays)).2
  · rw [hall, hended]
    exact hsessions
  · refine (hstays "done" 5 ?_).1
    rw [show (Dispatch.runTo _ 2 _ _) = state from hhalted]
    exact hcommitted

end Coordinator

end Harvest
