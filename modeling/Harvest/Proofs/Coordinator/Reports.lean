import Harvest.Proofs.Coordinator.Transition

/-! The reports of a cycle. Whoever moves next, a dispatch comes to an end at which each job is
settled. A cycle that says to be completed has one report for each relay that was planned, and nobody
was cancelled. -/

namespace Harvest

namespace Ledger

/-- Once there was a request to shut down it is noted. -/
theorem stopping_heed (l : Ledger) {control : Control} {now : Nat}
    (h : control.isShutDown now = true) : (l.heed control now).stopping = true := by
  rw [heed]
  split
  · rfl
  · rename_i hn
    simpa [h] using hn

end Ledger

namespace Coordinator

variable {c : Coordinator} {wall : UInt64} {jobs : List Job}

/-- A cycle that says to be completed has ended before its deadline and before any request to shut
down, with as many reports as jobs. -/
theorem of_completed (h : (c.execute wall jobs).result.state = .completed) :
    let ended := (c.begun wall jobs).1.run (Ledger.noteAt c.control) (c.begun wall jobs).2
    (∀ instant, c.control.cancelAt = some instant → ended.1.clock < instant) ∧
      jobs.length ≤ ended.2.sessions.length := by
  intro ended
  rw [state_execute, conclude] at h
  split at h
  · cases h
  · rename_i hstopping
    split at h
    · cases h
    · rename_i hlate
      simp only [not_or, Nat.not_le, Nat.not_lt, Ledger.sessions_heed] at hlate
      obtain ⟨hdeadline, hlength⟩ := hlate
      have hdeadline : ended.1.clock < c.clock + c.config.cycleDeadline := hdeadline
      refine ⟨fun instant hc => ?_, hlength⟩
      have hquiet : c.control.isShutDown ended.1.clock = false :=
        Bool.eq_false_iff.mpr fun hsd => hstopping (ended.2.stopping_heed hsd)
      obtain rfl := Option.some.inj hc
      simp only [control] at hquiet ⊢
      cases hs : c.shutdownAt with
      | none => exact hdeadline
      | some s =>
        rw [hs] at hquiet
        simp only [Control.isShutDown, Option.any_some, decide_eq_false_iff_not] at hquiet
        simp only [Nat.lt_min]
        omega

/-- A completed cycle has a report for each planned relay, and none that says cancelled. -/
theorem completed_reports {report : CycleReport} (h : (c.runCycle wall).result = .ok report)
    (hc : report.state = .completed) :
    ∃ relays, c.directory.listEligible = .ok relays ∧
      (report.sessions.map Report.about).Perm
        (relays.map fun relay => (relay.id, (c.jobFor wall relay).target)) ∧
      ∀ r ∈ report.sessions, r.outcome ≠ .abandoned .cancelled := by
  obtain ⟨hs, relays, hl, hp⟩ := of_result_ok h
  obtain rfl := Except.ok.inj (h.symm.trans (result_eq_execute hs hp))
  obtain ⟨hearly, hlength⟩ := of_completed hc
  obtain ⟨acts, htrail, hend, hsessions⟩ := c.cycle_trail wall (relays.map (c.jobFor wall))
  have hreport : (c.execute wall (relays.map (c.jobFor wall))).result.sessions = _ :=
    (Ledger.sessions_heed ..).trans hsessions
  have hsettled := htrail.settled hend
  rw [hsessions] at hlength
  refine ⟨relays, hl, ?_, fun r hr ho => ?_⟩
  · -- as many reports as jobs, so no task was torn down
    have hall : ∀ t ∈ ((c.begun wall (relays.map (c.jobFor wall))).1.run
        (Ledger.noteAt c.control) (c.begun wall (relays.map (c.jobFor wall))).2).1.tasks,
        (!t.isCrashed) = true := by
      refine List.filter_eq_self.mp (List.Sublist.eq_of_length_le List.filter_sublist ?_)
      have htotal := hsettled.total.length_eq
      have hdealt := hsettled.dealt.length_eq
      simp only [List.length_map] at htotal hdealt hlength
      omega
    have hperm := hsettled.dealt.map fun job => (job.relay.id, job.target)
    rw [List.map_map, List.map_map] at hperm
    rw [hreport]
    refine hsettled.total.trans ?_
    rw [List.filter_eq_self.mpr hall]
    exact hperm
  · rw [hreport] at hr
    rcases List.mem_append.mp hr with hr | hr
    · obtain ⟨job, -, rfl⟩ := Dispatch.mem_refusals_begin hr
      cases ho
    · obtain ⟨-, hcancelled⟩ := htrail.cancelled fun t ht => (Dispatch.mem_tasks_begin ht).2
      obtain ⟨instant, hcancel, hle⟩ := hcancelled r hr ho
      exact absurd (hearly instant hcancel) (Nat.not_lt.mpr hle)

/-- **No session is lost or reported twice.** A dispatch comes to an end, whoever moves next, and at
its end every job is settled; its own run, which sends the reports of the tasks in their order, is
one such trail. So a cycle that says to be completed has one report for each planned relay, and
nobody was cancelled. -/
theorem jobs_settled :
    (∀ (jobs : List Job) (workers limit : Nat) (pause : Nat → Nat → Nat) (refused : List Nat)
        (control : Control) (wall : UInt64) (now : Nat) (world : World),
      let begun := Dispatch.begin_ jobs workers limit pause refused control wall now world
      let sent := begun.1.run (fun reports _ r => reports ++ [r]) []
      (∀ acts d, Dispatch.Trail begun.1 acts d → d.step? = none →
        Dispatch.Settled jobs workers refused begun acts d) ∧
      ∃ acts, Dispatch.Trail begun.1 acts sent.1 ∧ sent.1.step? = none ∧
        sent.2 = Dispatch.reports acts) ∧
    (WellFounded fun next d : Dispatch => ∃ place task now, d.tasks[place]? = some task ∧
      d.due? task = some now ∧ next = d.moved place task now) ∧
    ∀ (c : Coordinator) (wall : UInt64) (report : CycleReport),
      (c.runCycle wall).result = .ok report → report.state = .completed →
        ∃ relays, c.directory.listEligible = .ok relays ∧
          (report.sessions.map Report.about).Perm
            (relays.map fun relay => (relay.id, (c.jobFor wall relay).target)) ∧
          ∀ r ∈ report.sessions, r.outcome ≠ .abandoned .cancelled := by
  refine ⟨fun jobs workers limit pause refused control wall now world => ⟨?_, ?_⟩,
    Dispatch.moves_wf, fun c wall report h hc => completed_reports h hc⟩
  · intro acts d h hd
    exact h.settled hd
  · obtain ⟨acts, htrail, hend, hsent⟩ := Dispatch.Trail.run
      (fun (reports : List Report) _ r => reports ++ [r]) id (fun _ _ _ => rfl)
      (.start : Dispatch.Trail (Dispatch.begin_ jobs workers limit pause refused control wall now
        world).1 [] _) []
    exact ⟨acts, htrail, hend, hsent.trans (List.nil_append _)⟩

/-- Three jobs for two workers: one session is torn down, and one worker is given no sink. The last
one is drained, and so is a cycle for its relay alone. -/
theorem jobs_settled_torn :
    let relay (id : String) : Relay := { id }
    let job (id : String) : Job :=
      { relay := relay id, target := ⟨5, 5⟩, settings := Config.settings {} (relay id) }
    let world : World :=
      { network := { peers := [("torn", .scripted { connects := [{ value := .crashed }] }),
          ("open", .memory { events := [], latency := 3 })] }
        sink := { depot := .memory {} } }
    let jobs := [job "torn", job "lost", job "open"]
    let begun := Dispatch.begin_ jobs 2 1 (fun _ _ => 0) [1] {} 5 0 world
    let c : Coordinator :=
      { config := {}, directory := .memory { relays := [relay "open"] }
        watermarks := { store := .memory {} }, world }
    (∃ acts d, Dispatch.Trail begun.1 acts d ∧ d.step? = none ∧
      Dispatch.Settled jobs 2 [1] begun acts d ∧
      begun.2.map (·.relay) = ["lost"] ∧ (Dispatch.reports acts).map (·.relay) = ["open"]) ∧
    ∃ report, (c.runCycle 5).result = .ok report ∧ report.state = .completed ∧
      report.sessions.map (·.relay) = ["open"] ∧
      ∀ r ∈ report.sessions, r.outcome ≠ .abandoned .cancelled := by
  intro relay job world jobs begun c
  let note : List Report → Nat → Report → List Report := fun reports _ r => reports ++ [r]
  have hends : ∃ ended, Nat.repeat (Dispatch.advance note) 24 (begun.1, []) = ended ∧
      ended.1.step?.isNone = true ∧ begun.2.map (·.relay) = ["lost"] ∧
        ended.2.map (·.relay) = ["open"] := by
    refine ⟨_, rfl, ?_⟩
    revert relay job world jobs begun c note
    decide +kernel
  have hplan : plan c.config c.directory c.watermarks 5 =
      .ok ([relay "open"].map (c.jobFor 5)) := rfl
  have hcycle : ∃ ended,
      Nat.repeat (Dispatch.advance (Ledger.noteAt c.control)) 24
          (c.begun 5 ([relay "open"].map (c.jobFor 5))) = ended ∧
        ended.1.step?.isNone = true ∧ ended.2.sessions.map (·.relay) = ["open"] ∧
        ({ c with clock := ended.1.clock } : Coordinator).conclude
          (ended.2.heed c.control ended.1.clock) c.clock 1 = .completed := by
    refine ⟨_, rfl, ?_⟩
    clear hplan hends
    revert relay job world jobs begun c note
    decide +kernel
  obtain ⟨hall, -, hcompleted⟩ := jobs_settled
  constructor
  · obtain ⟨ended, hend, hover, hrefused, hsent⟩ := hends
    have hrun := Dispatch.run_eq_repeat hend (Option.isNone_iff_eq_none.mp hover)
    obtain ⟨hsettled, acts, htrail, hrest, hreports⟩ :=
      hall jobs 2 1 (fun _ _ => 0) [1] {} 5 0 world
    exact ⟨acts, _, htrail, hrest, hsettled acts _ htrail hrest, hrefused, by
      rw [← hreports]
      exact (congrArg (fun state => state.2.map Report.relay) hrun).trans hsent⟩
  · obtain ⟨ended, hend, hover, hsessions, hstate⟩ := hcycle
    have hrun := Dispatch.run_eq_repeat hend (Option.isNone_iff_eq_none.mp hover)
    have hresult := result_eq_execute (c := c) rfl hplan
    have hstate : (c.execute 5 ([relay "open"].map (c.jobFor 5))).result.state = .completed := by
      rw [state_execute, hrun]
      exact hstate
    obtain ⟨report, hreport, hnoted, -⟩ := result_of_plan rfl hplan hrun
    obtain rfl := Except.ok.inj (hreport.symm.trans hresult)
    obtain ⟨_, -, -, hcancelled⟩ := hcompleted c 5 _ hresult hstate
    exact ⟨_, hresult, hstate, by rw [hnoted, hsessions], hcancelled⟩

end Coordinator

end Harvest
