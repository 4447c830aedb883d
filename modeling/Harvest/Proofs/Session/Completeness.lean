import Harvest.Event.Sample
import Harvest.Proofs.Session.Accounts
import Harvest.Proofs.Session.Provenance
import Harvest.Session.Run

/-! Whole runs of a session against a relay that answers newest first. Whatever fails on the way and
whenever the session is stopped, it hands over nothing that it was not given and flags nothing that
it did not ask for; and if it reports that it has drained its target, then nothing was missed there
except under a flag. -/

namespace Harvest

theorem Config.one_le_resultCap (config : Config) (relay : Relay) :
    1 ≤ (config.settings relay).resultCap := Nat.le_max_left _ _

theorem Config.one_le_minWindow (config : Config) (relay : Relay) :
    1 ≤ (config.settings relay).minWindow := Nat.le_max_left _ _

namespace Session

/-- What every move keeps, a run keeps. -/
theorem run_keeps {c : Control} {keeps : World × Session → Prop}
    (hstep : ∀ world s, keeps (world, s) → keeps (s.step c world)) (world : World) (s : Session)
    (h : keeps (world, s)) : keeps (s.run c world) := by
  fun_induction run c world s with
  | case1 world s _ ih => exact ih (hstep world s h)
  | case2 => exact h

theorem step_of_isOver {s : Session} (h : s.isOver = true) (c : Control) (world : World) :
    s.step c world = (world, s) := by
  have hd : s.stage.due? = none := Option.isNone_iff_eq_none.mp h
  rw [step, hd]

theorem run_step (c : Control) (world : World) (s : Session) :
    (s.step c world).2.run c (s.step c world).1 = s.run c world := by
  cases h : s.isOver with
  | true => rw [step_of_isOver h]
  | false => rw [run.eq_def c world s, dif_pos h]

/-- A run is as many moves as it takes until the session is over. -/
theorem run_eq_repeat {c : Control} {n : Nat} {world : World} {s : Session}
    {ended : World × Session}
    (h : Nat.repeat (fun state => state.2.step c state.1) n (world, s) = ended)
    (hover : ended.2.isOver = true) : s.run c world = ended := by
  have hrun : s.run c world = ended.2.run c ended.1 := by
    rw [← h]
    clear h hover
    induction n with
    | zero => rfl
    | succ n ih => exact ih.trans (run_step ..).symm
  rw [hrun, run, dif_neg (by rw [hover]; decide)]

/-- What holds all the time of a session for a job, whose relay holds these events, since the
world was `old`. -/
structure Sane (held : List Event) (job : Job) (old : World) (state : World × Session) : Prop where
  complete : Complete held state
  traced : Traced held old state
  same : state.2.job = job
  serves : state.1.Serves held job.settings.resultCap job.relay.id

theorem sane_start {held : List Event} {job : Job} (hc : 1 ≤ job.settings.resultCap)
    {world : World} (hs : world.Serves held job.settings.resultCap job.relay.id) (wall : UInt64)
    (now : Nat) : Sane held job world (world, start job wall now) :=
  ⟨accounts_start hc wall now, traced_start held world job wall now, rfl, hs⟩

theorem sane_step {held : List Event} {job : Job} {old world : World} {s : Session}
    (h : Sane held job old (world, s)) (c : Control) : Sane held job old (s.step c world) := by
  obtain ⟨hc, ht, rfl, hs⟩ := h
  obtain ⟨hm, hj, -⟩ := leads_step s world c
  refine ⟨complete_step hc hs.honest c, traced_step ht ?_ c, hj, hm.serves hs⟩
  intro w timeout now reply hr
  exact (hs.reply (Nat.le_refl _) hr).2

theorem sane_run {held : List Event} {job : Job} (hc : 1 ≤ job.settings.resultCap)
    {world : World} (hs : world.Serves held job.settings.resultCap job.relay.id) (wall : UInt64)
    (now : Nat) (c : Control) : Sane held job world ((start job wall now).run c world) :=
  run_keeps (fun _ _ h => sane_step h c) _ _ (sane_start hc hs wall now)

/-- **What a session hands over is held by its relay, and what it flags it has asked for. If it
reports that it is drained, each valid event of the target is with the sink or under a flag.** -/
theorem run_complete (config : Config) (relay : Relay) (target : Window) (wall : UInt64)
    (now : Nat) (c : Control) (world : World) (r : MemoryRelay)
    (hr : world.network.peer? relay.id = some (.memory r))
    (hc : ∀ cap, r.cap = some cap → (config.settings relay).resultCap ≤ cap) :
    let job : Job := { relay, target, settings := config.settings relay }
    let (after, s) := (start job wall now).run c world
    ∃ asked handed,
      after.network.asked = asked ++ world.network.asked ∧
      after.sink.handed = handed ++ world.sink.handed ∧
      (∀ h ∈ handed, ∀ e ∈ h.batch.events, e ∈ r.events ∧ e.stamp ∈ target) ∧
      ∀ report, s.report? = some report →
        (∀ w ∈ report.stats.flagged, w.width < job.settings.minWindow ∧
          ∃ a ∈ asked, a.relay = relay.id ∧
            a.query = { window := w, limit := job.settings.resultCap }) ∧
        (report.outcome = .drained →
          ∀ e ∈ r.events, e.validate = .ok () → e.stamp ∈ target →
            after.holds e.id = true ∨ ∃ w ∈ report.stats.flagged, e.stamp ∈ w) := by
  have hserves : world.Serves r.events (config.settings relay).resultCap relay.id := by
    intro p hp
    rw [hr] at hp
    obtain rfl := Option.some.inj hp
    exact .memory r rfl hc
  have hone := config.one_le_resultCap relay
  have hfloor := config.one_le_minWindow relay
  intro job
  have hsane : Sane r.events job world _ := sane_run hone hserves wall now c
  generalize (start job wall now).run c world = ended at hsane ⊢
  obtain ⟨after, s⟩ := ended
  obtain ⟨hcomplete, ⟨asked, ⟨ha, ⟨handed, hh, hw⟩, hsplitter, -⟩, -⟩, hj, -⟩ := hsane
  rw [hj] at hw hsplitter
  refine ⟨asked, handed, ha, hh, hw, ?_⟩
  intro report hreport
  obtain ⟨-, -, htarget, hflagged⟩ := of_report? hreport
  constructor
  · intro w hw
    rw [hflagged] at hw
    obtain ⟨⟨-, hq⟩, hwidth⟩ := hsplitter.flagged w hw
    rw [hsplitter.floor, Nat.max_eq_right hfloor] at hwidth
    exact ⟨hwidth, hq⟩
  · intro hd e he hv ht
    refine hcomplete.report hreport hd e he hv ?_
    rw [htarget, hj]
    exact ht

/-- One garbage payload and one event fill the only reply: the event is with the sink, and its
second is flagged. -/
theorem run_complete_burst :
    let relay : Relay := { id := "relay", overrides := { resultCap := some 2 } }
    let held : List Event := [{ Event.build (Event.repeated "a1") 5 1 [] "x" with
      id := "7cb95dc45205407bb4c493f8ff38b0437cbfc4b817ab6533a08c1b36d33d4582" }]
    let world : World :=
      { network := { peers := [("relay", .memory { events := held, cap := some 2, garbage := 1 })] }
        sink := { depot := .memory {} } }
    let job : Job := { relay, target := ⟨5, 5⟩, settings := Config.settings {} relay }
    let (after, s) := (start job 100 0).run {} world
    (∀ e ∈ held, after.holds e.id = true) ∧
      ∃ report, s.report? = some report ∧ report.outcome = .drained ∧
        report.stats.flagged = [⟨5, 5⟩] ∧
        ∀ e ∈ held, e.validate = .ok () → e.stamp ∈ (⟨5, 5⟩ : Window) →
          after.holds e.id = true ∨ ∃ w ∈ report.stats.flagged, e.stamp ∈ w := by
  intro relay held world job
  have hrun : let (after, s) := (start job 100 0).run {} world; _ :=
    run_complete {} relay ⟨5, 5⟩ 100 0 {} world { events := held, cap := some 2, garbage := 1 } rfl
      (fun cap hc => Nat.le_of_eq (Option.some.inj hc))
  have hends : ∃ ended,
      Nat.repeat (fun state => state.2.step {} state.1) 6 (world, start job 100 0) = ended ∧
        ended.2.isOver = true ∧
        (ended.2.report?.map fun r => (r.outcome, r.stats.flagged)) = some (.drained, [⟨5, 5⟩]) ∧
        ∀ e ∈ held, ended.1.holds e.id = true := by
    clear hrun
    refine ⟨_, rfl, ?_⟩
    revert relay held world job
    decide +kernel
  obtain ⟨ended, hend, hover, hreport, hheld⟩ := hends
  rw [run_eq_repeat hend hover] at hrun ⊢
  obtain ⟨report, hr, ho⟩ := Option.map_eq_some_iff.mp hreport
  obtain ⟨hd, hf⟩ := Prod.mk.inj ho
  obtain ⟨_, _, -, -, -, hall⟩ := hrun
  exact ⟨hheld, report, hr, hd, hf, (hall report hr).2 hd⟩

end Session

end Harvest
