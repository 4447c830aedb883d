import Harvest.Event.Sample
import Harvest.Proofs.Coordinator.Cycles
import Harvest.Proofs.Coordinator.Planning

/-! A watermark never promises too much, at no instant of no run. The reports whose watermarks were
written cover without a gap all that lies between the start of the first one of a relay and its
watermark, and each of them was made when the sink had taken all events of its range that are not
flagged. -/

namespace Harvest

/-! ## Watermarks and the reports that moved them -/

/-- The ranges of the reports of a relay reach without a gap from the start of the first one up to
the mark. -/
def Backed (commits : List Report) (relay : RelayId) (mark : Nat) : Prop :=
  ∃ first, commits.find? (·.relay = relay) = some first ∧
    ∀ t, first.target.since ≤ t → t ≤ mark → ∃ r ∈ commits, r.relay = relay ∧ t ∈ r.target

theorem Backed.append {commits : List Report} {relay : RelayId} {mark : Nat}
    (h : Backed commits relay mark) (r : Report) : Backed (commits ++ [r]) relay mark := by
  obtain ⟨first, hf, hc⟩ := h
  refine ⟨first, ?_, ?_⟩
  · rw [List.find?_append, hf, Option.some_or]
  · intro t hs ht
    obtain ⟨r', hr', hrest⟩ := hc t hs ht
    exact ⟨r', List.mem_append_left _ hr', hrest⟩

/-- The first report of a relay backs its first watermark. -/
theorem backed_first {commits : List Report} {r : Report}
    (h : ∀ r' ∈ commits, r'.relay ≠ r.relay) :
    Backed (commits ++ [r]) r.relay r.target.upto := by
  refine ⟨r, ?_, ?_⟩
  · have hn : commits.find? (·.relay = r.relay) = none := by
      rw [List.find?_eq_none]
      intro r' hr'
      simpa using h r' hr'
    rw [List.find?_append, hn, Option.none_or, List.find?_singleton]
    simp
  · intro t hs ht
    exact ⟨r, List.mem_append_right _ (List.mem_singleton.mpr rfl), rfl, hs, ht⟩

/-- A report that joins a watermark backs the next one. -/
theorem Backed.extend {commits : List Report} {r : Report} {mark : Nat}
    (h : Backed commits r.relay mark) (hj : r.target.since ≤ mark) :
    Backed (commits ++ [r]) r.relay (max mark r.target.upto) := by
  obtain ⟨first, hf, hc⟩ := h.append r
  refine ⟨first, hf, ?_⟩
  intro t hs ht
  by_cases hm : t ≤ mark
  · exact hc t hs hm
  · exact ⟨r, List.mem_append_right _ (List.mem_singleton.mpr rfl), rfl,
      Window.mem_iff.mpr (by omega)⟩

/-- To write the watermark of a report that joins the one before leaves every watermark backed. -/
theorem backed_set {marks : WatermarkStore} {commits : List Report} {r : Report} {now : Nat}
    (hb : ∀ relay mark, marks.get? relay = some mark → Backed commits relay mark)
    (hm : ∀ r' ∈ commits, marks.get? r'.relay ≠ none)
    (hj : r.target.Joins marks r.relay now) {relay : RelayId} {mark : Nat}
    (h : (marks.set r.relay r.target.upto).get? relay = some mark) :
    Backed (commits ++ [r]) relay mark := by
  rw [WatermarkStore.get?_set] at h
  split at h
  · rename_i he
    subst relay
    obtain rfl := Option.some.inj h
    cases hg : marks.get? r.relay with
    | none =>
      refine backed_first fun r' hr' he => hm r' hr' ?_
      rw [he, hg]
    | some old => exact (hb _ _ hg).extend (hj.no_gap old hg)
  · exact (hb _ _ h).append r

/-! ## What is true at every instant -/

/-- What a cycle relies on while it goes on: its tasks and the reports that were not noted yet join
the watermarks, and no session has lost an event. -/
def Moment.Sound (fleet : Fleet) (ended : List Report) : Moment → Prop
  | idle _ _ => True
  | busy d inbox ledger => ∃ now,
    (∀ t ∈ d.tasks, t.Faithful fleet d.world ∧
      t.job.target.Joins ledger.watermarks.store t.job.relay.id now) ∧
    ∀ r ∈ inbox, r ∈ ended ∧ r.target.Joins ledger.watermarks.store r.relay now

namespace History

structure Sound (fleet : Fleet) (h : History) : Prop where
  reports : ∀ r ∈ h.ended, r.Sound (fleet.held r.relay) h.moment.world
  commits : ∀ r ∈ h.commits, r ∈ h.ended ∧ r.outcome = .drained
  marked : ∀ r ∈ h.commits, h.moment.marks.get? r.relay ≠ none
  backed : ∀ relay mark, h.moment.marks.get? relay = some mark → Backed h.commits relay mark
  moment : h.moment.Sound fleet h.ended

variable {config : Config} {fleet : Fleet} {ended commits : List Report}

theorem sound_begin {world : World} {watermarks : Watermarks}
    (h : Sound fleet ⟨.idle world watermarks, ended, commits⟩) {directory : Directory}
    {wall : UInt64} {jobs : List Job} {pause : Nat → Nat → Nat} {refused : List Nat}
    {control : Control} {now : Nat} {d : Dispatch} {refusals : List Report}
    (hp : plan config directory watermarks wall = .ok jobs)
    (hc : ∀ job ∈ jobs, job.settings.resultCap ≤ fleet.cap job.relay.id)
    (hb : Dispatch.begin_ jobs config.workers config.sessionsPerWorker pause refused control wall
      now world = (d, refusals)) :
    Sound fleet ⟨.busy d refusals { watermarks }, ended ++ refusals, commits⟩ := by
  have hw : d.world = world := by
    obtain rfl := congrArg Prod.fst hb
    rfl
  have hr : ∀ r ∈ refusals, ∃ job ∈ jobs, r = .notStarted job := by
    obtain rfl := congrArg Prod.snd hb
    exact fun r hr => Dispatch.mem_refusals_begin hr
  refine ⟨?_, ?_, h.marked, h.backed, wall.toNat, ?_, ?_⟩
  · intro r hm
    rcases List.mem_append.mp hm with hm | hm
    · have := h.reports r hm
      rw [← hw] at this
      exact this
    · obtain ⟨job, -, rfl⟩ := hr r hm
      exact Report.sound_notStarted job
  · intro r hm
    exact ⟨List.mem_append_left _ (h.commits r hm).1, (h.commits r hm).2⟩
  · intro t ht
    have ht : t.job ∈ jobs ∧ ∀ s, t.progress ≠ .running s := by
      obtain rfl := congrArg Prod.fst hb
      exact Dispatch.mem_tasks_begin ht
    obtain ⟨-, hs, hj⟩ := of_mem_plan hp ht.1
    refine ⟨⟨?_, hc _ ht.1, fun s hrun => absurd hrun (ht.2 s)⟩, hj⟩
    rw [hs]
    exact Nat.le_max_left _ _
  · intro r hm
    obtain ⟨job, hj, rfl⟩ := hr r hm
    exact ⟨List.mem_append_right _ hm, (of_mem_plan hp hj).2.2⟩

theorem sound_act {d : Dispatch} {inbox : List Report} {ledger : Ledger}
    (h : Sound fleet ⟨.busy d inbox ledger, ended, commits⟩) (ha : fleet.Answers d.world)
    {place now : Nat} {task task' : Task} {world : World} {report : Option Report}
    (ht : d.tasks[place]? = some task)
    (hs : task.step d.control d.wall now d.world = (world, task', report)) :
    Sound fleet ⟨.busy { d with world, tasks := d.tasks.set place task' }
      (inbox ++ report.toList) ledger, ended ++ report.toList, commits⟩ := by
  obtain ⟨hreports, hcommits, hmarked, hbacked, cycle, htasks, hinbox⟩ := h
  obtain ⟨hfaithful, hjoins⟩ := htasks task (List.mem_of_getElem? ht)
  obtain ⟨hw, hmoved⟩ := hfaithful.step ha d.control d.wall now
  rw [hs] at hw hmoved
  refine ⟨?_, ?_, hmarked, hbacked, cycle, ?_, ?_⟩
  · intro r hr
    rcases List.mem_append.mp hr with hr | hr
    · exact (hreports r hr).mono hw
    · obtain ⟨hrelay, -, hsound⟩ := hmoved.report r (Option.mem_toList.mp hr)
      rw [hrelay]
      exact hsound
  · intro r hr
    exact ⟨List.mem_append_left _ (hcommits r hr).1, (hcommits r hr).2⟩
  · intro t hm
    rcases List.mem_or_eq_of_mem_set hm with hm | rfl
    · exact ⟨(htasks t hm).1.mono hw, (htasks t hm).2⟩
    · refine ⟨hmoved.faithful, ?_⟩
      rw [hmoved.job]
      exact hjoins
  · intro r hr
    rcases List.mem_append.mp hr with hr | hr
    · exact ⟨List.mem_append_left _ (hinbox r hr).1, (hinbox r hr).2⟩
    · obtain ⟨hrelay, htarget, -⟩ := hmoved.report r (Option.mem_toList.mp hr)
      refine ⟨List.mem_append_right _ hr, ?_⟩
      rw [hrelay, htarget]
      exact hjoins

theorem sound_crash {d : Dispatch} {inbox : List Report} {ledger : Ledger}
    (h : Sound fleet ⟨.busy d inbox ledger, ended, commits⟩) {place : Nat} {task : Task}
    (ht : d.tasks[place]? = some task) :
    Sound fleet ⟨.busy { d with tasks := d.tasks.set place { task with
      progress := .ended .crashed } } inbox ledger, ended, commits⟩ := by
  obtain ⟨hreports, hcommits, hmarked, hbacked, cycle, htasks, hinbox⟩ := h
  refine ⟨hreports, hcommits, hmarked, hbacked, cycle, ?_, hinbox⟩
  intro t hm
  rcases List.mem_or_eq_of_mem_set hm with hm | rfl
  · exact htasks t hm
  · obtain ⟨hfaithful, hjoins⟩ := htasks task (List.mem_of_getElem? ht)
    exact ⟨hfaithful.rest (fun _ hs => by cases hs), hjoins⟩

end History

/-- To note a report writes its watermark, or none. -/
theorem Ledger.watermarks_noteAt (l : Ledger) (control : Control) (now : Nat) (r : Report) :
    (l.writes r = true ∧ r.outcome = .drained ∧
      (l.noteAt control now r).watermarks.store = l.watermarks.store.set r.relay r.target.upto) ∨
    (l.writes r = false ∧ (l.noteAt control now r).watermarks = l.watermarks) := by
  have hh := l.watermarks_heed control now
  cases ho : r.outcome with
  | drained =>
    have hc : r.confirmedUntil = some r.target.upto := by rw [Report.confirmedUntil, ho]; rfl
    simp only [writes, noteAt, note, commit, hc, Watermarks.set, hh]
    cases hf : l.watermarks.refusesSet r.relay with
    | true => right; exact ⟨rfl, hh⟩
    | false => left; exact ⟨rfl, trivial, rfl⟩
  | abandoned reason =>
    have hc : r.confirmedUntil = none := by rw [Report.confirmedUntil, ho]; rfl
    simp only [writes, noteAt, note, commit, hc]
    exact .inr ⟨trivial, hh⟩
  | sinkFailed fault =>
    have hc : r.confirmedUntil = none := by rw [Report.confirmedUntil, ho]; rfl
    simp only [writes, noteAt, note, commit, hc]
    exact .inr ⟨trivial, hh⟩

namespace History

variable {config : Config} {fleet : Fleet} {ended commits : List Report}

theorem sound_note {d : Dispatch} {r : Report} {inbox : List Report} {ledger : Ledger}
    (h : Sound fleet ⟨.busy d (r :: inbox) ledger, ended, commits⟩) (control : Control)
    (now : Nat) :
    Sound fleet ⟨.busy d inbox (ledger.noteAt control now r), ended,
      if ledger.writes r then commits ++ [r] else commits⟩ := by
  obtain ⟨hreports, hcommits, hmarked, hbacked, cycle, htasks, hinbox⟩ := h
  obtain ⟨hended, hjoins⟩ := hinbox r (List.mem_cons_self ..)
  have hinbox : ∀ r' ∈ inbox, _ := fun r' hr' => hinbox r' (List.mem_cons_of_mem _ hr')
  rcases ledger.watermarks_noteAt control now r with ⟨hwrites, hdrained, hstore⟩ | ⟨hwrites, hsame⟩
  · rw [if_pos hwrites]
    -- marks only rise, so the ranges of the cycle that are still out join them as before
    have hset (relay : RelayId) {w : Window} (hw : w.Joins ledger.watermarks.store relay cycle) :
        w.Joins (ledger.noteAt control now r).watermarks.store relay cycle := by
      rw [hstore, hjoins.upto_eq]
      exact hw.set r.relay
    refine ⟨hreports, ?_, ?_, ?_, cycle, ?_, ?_⟩
    · intro r' hr'
      rcases List.mem_append.mp hr' with hr' | hr'
      · exact hcommits r' hr'
      · obtain rfl := List.mem_singleton.mp hr'
        exact ⟨hended, hdrained⟩
    · intro r' hr'
      simp only [Moment.marks, hstore, WatermarkStore.get?_set]
      split
      · exact Option.some_ne_none _
      · rcases List.mem_append.mp hr' with hr' | hr'
        · exact hmarked r' hr'
        · obtain rfl := List.mem_singleton.mp hr'
          contradiction
    · intro relay mark hmark
      simp only [Moment.marks, hstore] at hmark
      exact backed_set hbacked hmarked hjoins hmark
    · intro t ht
      exact ⟨(htasks t ht).1, hset _ (htasks t ht).2⟩
    · intro r' hr'
      exact ⟨(hinbox r' hr').1, hset _ (hinbox r' hr').2⟩
  · rw [hwrites, if_neg Bool.false_ne_true]
    refine ⟨hreports, hcommits, ?_, ?_, cycle, ?_, ?_⟩
    · simpa only [Moment.marks, hsame] using hmarked
    · simpa only [Moment.marks, hsame] using hbacked
    · rw [hsame]
      exact htasks
    · rw [hsame]
      exact hinbox

/-- What goes on around a coordinator does no harm. -/
theorem sound_change {moment moment' : Moment} (h : Sound fleet ⟨moment, ended, commits⟩)
    (hw : moment.world.Retains moment'.world) (hm : moment'.marks = moment.marks)
    (hs : moment'.Sound fleet ended) : Sound fleet ⟨moment', ended, commits⟩ where
  reports r hr := (h.reports r hr).mono hw
  commits := h.commits
  marked r hr := by
    rw [hm]
    exact h.marked r hr
  backed relay mark hmark := by
    rw [hm] at hmark
    exact h.backed relay mark hmark
  moment := hs

/-- No event makes a watermark promise too much. -/
theorem sound_step {h h' : History} (hs : Step config fleet h h') (hk : h.Sound fleet) :
    h'.Sound fleet := by
  cases hs with
  | begin_ pause refused control now hp hc hb => exact sound_begin hk hp hc hb
  | act now ha ht hs => exact sound_act hk ha ht hs
  | crash ht => exact sound_crash hk ht
  | note control now r => exact sound_note hk control now
  | leave => exact sound_change hk (fun _ hid => hid) rfl trivial
  | turn ht hw hm =>
    obtain ⟨cycle, htasks, hinbox⟩ := hk.moment
    refine sound_change hk hw hm ⟨cycle, ?_, ?_⟩
    · rw [ht, hm]
      intro t hmem
      exact ⟨(htasks t hmem).1.mono hw, (htasks t hmem).2⟩
    · rw [hm]
      exact hinbox
  | rest hw hm => exact sound_change hk hw hm trivial

theorem sound_of_reached {h : History} (hr : Reached config fleet h) : h.Sound fleet := by
  induction hr with
  | start hn =>
    refine ⟨nofun, nofun, nofun, ?_, trivial⟩
    intro relay mark hmark
    rw [Moment.marks, hn relay] at hmark
    cases hmark
  | step _ hs ih => exact sound_step hs ih

/-- **Whenever a relay has a watermark, each valid event of the relay from the start of its first
committed session up to the watermark is with the sink, or under a flag of a drained session.** -/
theorem watermark_sound {h : History} (hr : Reached config fleet h) {relay : RelayId} {mark : Nat}
    (hm : h.moment.marks.get? relay = some mark) :
    ∃ first, h.commits.find? (·.relay = relay) = some first ∧
      ∀ e ∈ fleet.held relay, e.validate = .ok () →
        first.target.since ≤ e.stamp → e.stamp ≤ mark →
          h.moment.world.holds e.id = true ∨
            ∃ r ∈ h.ended, r.relay = relay ∧ r.outcome = .drained ∧
              ∃ w ∈ r.stats.flagged, e.stamp ∈ w := by
  have hk := sound_of_reached hr
  obtain ⟨first, hfirst, hcover⟩ := hk.backed relay mark hm
  refine ⟨first, hfirst, ?_⟩
  intro e he hv hs ht
  obtain ⟨r, hcommit, hrelay, hin⟩ := hcover e.stamp hs ht
  obtain ⟨hended, hdrained⟩ := hk.commits r hcommit
  have hsound := hk.reports r hended
  rw [hrelay] at hsound
  rcases hsound hdrained e he hv hin with hkept | hflag
  · exact .inl hkept
  · exact .inr ⟨r, hended, hrelay, hdrained, hflag⟩

/-- One cycle whose only reply is filled by garbage: the watermark is written, and the event that
the relay did not send lies in the flagged window. -/
theorem watermark_sound_garbage :
    let held := [Event.build (Event.repeated "a1") 3 1 [] "x"]
    let c : Coordinator :=
      { config := { resultCap := 1, minWindow := 10 }
        directory := .memory { relays := [{ id := "relay" }] }
        watermarks := { store := .memory {} }
        world := { network := { peers := [("relay", .memory { events := held, garbage := 1 })] }
                   sink := { depot := .memory {} } } }
    let fleet : Fleet := { held := fun _ => held, cap := fun _ => 1 }
    let after := (c.runCycle 5).coordinator
    after.watermarks.store.get? "relay" = some 5 ∧
      ∃ ended commits first,
        Reached c.config fleet ⟨.idle after.world after.watermarks, ended, commits⟩ ∧
        commits.find? (·.relay = "relay") = some first ∧
        ∀ e ∈ held, e.validate = .ok () → first.target.since ≤ e.stamp → e.stamp ≤ 5 →
          after.world.holds e.id = true ∨
            ∃ r ∈ ended, r.relay = "relay" ∧ r.outcome = .drained ∧
              ∃ w ∈ r.stats.flagged, e.stamp ∈ w := by
  intro held c fleet after
  have hserves : fleet.Serves c.world := by
    intro relay p hp
    have hpeers : ([("relay", .memory { events := held, garbage := 1 })] :
      List (RelayId × Peer)).lookup relay = some p := hp
    rw [List.lookup_cons] at hpeers
    split at hpeers
    · obtain rfl := Option.some.inj hpeers
      exact .memory _ rfl nofun
    · cases hpeers
  let job : Job :=
    { relay := { id := "relay" }, target := target c.config.defaultLookback (5 : UInt64).toNat none
      settings := c.config.settings { id := "relay" } }
  have hplan : plan c.config c.directory c.watermarks 5 = .ok [job] := rfl
  have hmark : after.watermarks.store.get? "relay" = some 5 := by
    have hends : ∃ ended,
        Nat.repeat (Dispatch.advance (Ledger.noteAt c.control)) 6 (c.begun 5 [job]) = ended ∧
          ended.1.step?.isNone = true ∧ ended.2.watermarks.store.get? "relay" = some 5 := by
      refine ⟨_, rfl, ?_⟩
      clear hserves hplan
      revert held c fleet after job
      decide +kernel
    obtain ⟨ended, hend, hover, hgot⟩ := hends
    have hrun := Dispatch.run_eq_repeat hend (Option.isNone_iff_eq_none.mp hover)
    obtain ⟨-, hmarks⟩ := c.runCycle_of_plan rfl hplan hrun
    rw [hmarks]
    exact hgot
  have hfits : c.Fits fleet := by
    intro relays hlist relay hmem
    obtain rfl := Except.ok.inj hlist
    obtain rfl := List.mem_singleton.mp hmem
    exact Nat.le_refl _
  have hstands : c.Stands fleet := ⟨hserves, hfits, [], [], .start fun _ => rfl⟩
  obtain ⟨ended, commits, hreached⟩ := (hstands.runCycle 5).reached
  rw [(c.config_runCycle 5).1] at hreached
  obtain ⟨first, hfirst, hsound⟩ := watermark_sound hreached hmark
  exact ⟨hmark, ended, commits, first, hreached, hfirst, hsound⟩

end History

end Harvest
