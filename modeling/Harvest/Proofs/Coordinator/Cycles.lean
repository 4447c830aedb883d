import Harvest.Proofs.Coordinator.History
import Harvest.Proofs.Coordinator.Planning

/-! The cycles of a coordinator are histories: where its relays answer with the newest of the events
they hold, a whole cycle is nothing but a planning, moves of its tasks, each report noted as it
comes, and an end. -/

namespace Harvest

/-- Every relay holds its events and does not cut below its cap. -/
def Fleet.Serves (fleet : Fleet) (world : World) : Prop :=
  ∀ relay, world.Serves (fleet.held relay) (fleet.cap relay) relay

theorem Fleet.Serves.answers {fleet : Fleet} {world : World} (h : fleet.Serves world) :
    fleet.Answers world := fun relay => (h relay).honest

theorem Fleet.Serves.step {fleet : Fleet} {world : World} (h : fleet.Serves world) (t : Task)
    (c : Control) (wall : UInt64) (now : Nat) : fleet.Serves (t.step c wall now world).1 := by
  intro relay
  rw [Task.step]
  cases t.progress with
  | running s => exact (Session.leads_step s world c).1.serves (h relay)
  | _ => exact h relay

namespace Coordinator

/-- The sessions of a cycle, and what is noted before they begin. -/
def begun (c : Coordinator) (wall : UInt64) (jobs : List Job) : Dispatch × Ledger :=
  let (begun, refusals) := Dispatch.begin_ jobs c.config.workers c.config.sessionsPerWorker c.pause
    c.refused c.control wall c.clock c.world
  (begun, refusals.foldl (fun l r => l.noteAt c.control c.clock r) { watermarks := c.watermarks })

/-- What is left of a cycle are the world and the watermarks at the end of its moves. -/
theorem runCycle_of_plan {c : Coordinator} {wall : UInt64} {jobs : List Job}
    (hs : c.state.refusal? = none) (hp : plan c.config c.directory c.watermarks wall = .ok jobs)
    {ended : Dispatch × Ledger}
    (hr : (c.begun wall jobs).1.run (Ledger.noteAt c.control) (c.begun wall jobs).2 = ended) :
    (c.runCycle wall).coordinator.world = ended.1.world ∧
      (c.runCycle wall).coordinator.watermarks = ended.2.watermarks := by
  subst hr
  simp only [runCycle, hs, hp]
  split
  · exact ⟨rfl, Ledger.watermarks_heed ..⟩
  · exact ⟨rfl, Ledger.watermarks_heed ..⟩

/-- A cycle reports what is noted at the end of its moves. -/
theorem result_of_plan {c : Coordinator} {wall : UInt64} {jobs : List Job}
    (hs : c.state.refusal? = none) (hp : plan c.config c.directory c.watermarks wall = .ok jobs)
    {ended : Dispatch × Ledger}
    (hr : (c.begun wall jobs).1.run (Ledger.noteAt c.control) (c.begun wall jobs).2 = ended) :
    ∃ report, (c.runCycle wall).result = .ok report ∧ report.sessions = ended.2.sessions ∧
      report.committed = ended.2.committed := by
  subst hr
  refine ⟨(c.execute wall jobs).result, ?_, Ledger.sessions_heed .., Ledger.committed_heed ..⟩
  simp only [runCycle, hs, hp]
  split <;> rfl

/-- What a cycle gives, once it is planned. -/
theorem result_eq_execute {c : Coordinator} {wall : UInt64} {jobs : List Job}
    (hs : c.state.refusal? = none)
    (hp : plan c.config c.directory c.watermarks wall = .ok jobs) :
    (c.runCycle wall).result = .ok (c.execute wall jobs).result := by
  simp only [runCycle, hs, hp]
  split <;> rfl

/-- The state that a cycle ends in is decided at the end of its moves. -/
theorem state_execute (c : Coordinator) (wall : UInt64) (jobs : List Job) :
    let ended := (c.begun wall jobs).1.run (Ledger.noteAt c.control) (c.begun wall jobs).2
    (c.execute wall jobs).result.state =
      ({ c with clock := ended.1.clock } : Coordinator).conclude
        (ended.2.heed c.control ended.1.clock) c.clock jobs.length := rfl

/-- What holds before a cycle begins, and what the jobs that are refused keep, holds when its first
session may begin. -/
theorem begun_keeps {c : Coordinator} {wall : UInt64} {jobs : List Job}
    (keeps : Dispatch × Ledger → Prop)
    (hstart : keeps ((c.begun wall jobs).1, { watermarks := c.watermarks }))
    (hrefuse : ∀ job ∈ jobs, ∀ d l, keeps (d, l) →
      keeps (d, l.noteAt c.control c.clock (.notStarted job))) :
    keeps (c.begun wall jobs) := by
  have hrefused : ∀ r ∈ (Dispatch.begin_ jobs c.config.workers c.config.sessionsPerWorker c.pause
      c.refused c.control wall c.clock c.world).2, ∃ job ∈ jobs, r = .notStarted job :=
    fun _ hr => Dispatch.mem_refusals_begin hr
  have hnoted (refusals : List Report) (hr : ∀ r ∈ refusals, ∃ job ∈ jobs, r = .notStarted job)
      (d : Dispatch) (l : Ledger) (h : keeps (d, l)) :
      keeps (d, refusals.foldl (fun l r => l.noteAt c.control c.clock r) l) := by
    induction refusals generalizing l with
    | nil => exact h
    | cons r rest ih =>
      obtain ⟨job, hj, rfl⟩ := hr r (List.mem_cons_self ..)
      exact ih (fun r' hr' => hr r' (List.mem_cons_of_mem _ hr')) _ (hrefuse job hj d l h)
  exact hnoted _ hrefused _ _ hstart

/-- What holds before a cycle begins, and what the jobs that are refused and all moves of its
sessions keep, holds at its end. -/
theorem cycle_keeps {c : Coordinator} {wall : UInt64} {jobs : List Job}
    (keeps : Dispatch × Ledger → Prop)
    (hstart : keeps ((c.begun wall jobs).1, { watermarks := c.watermarks }))
    (hrefuse : ∀ job ∈ jobs, ∀ d l, keeps (d, l) →
      keeps (d, l.noteAt c.control c.clock (.notStarted job)))
    (hmove : ∀ d l next report, d.step? = some (next, report) → keeps (d, l) →
      keeps (next, match report with | some r => l.noteAt c.control next.clock r | none => l)) :
    keeps ((c.begun wall jobs).1.run (Ledger.noteAt c.control) (c.begun wall jobs).2) :=
  Dispatch.run_keeps keeps hmove _ _ (begun_keeps keeps hstart hrefuse)

end Coordinator

namespace History

variable {config : Config} {fleet : Fleet} {ended commits : List Report}

/-- All reports that are there may be noted. -/
theorem Reached.noteAll {d : Dispatch} {inbox : List Report} {ledger : Ledger}
    (h : Reached config fleet ⟨.busy d inbox ledger, ended, commits⟩) (control : Control)
    (now : Nat) :
    ∃ commits', Reached config fleet
      ⟨.busy d [] (inbox.foldl (fun l r => l.noteAt control now r) ledger), ended, commits'⟩ := by
  induction inbox generalizing ledger commits with
  | nil => exact ⟨commits, h⟩
  | cons r rest ih => exact ih (h.step (.note control now r))

/-- The next move is that of a task, perhaps with the end of a handle. -/
theorem Reached.move {d next : Dispatch} {ledger : Ledger} {report : Option Report}
    (h : Reached config fleet ⟨.busy d [] ledger, ended, commits⟩) (hs : fleet.Serves d.world)
    (hn : d.step? = some (next, report)) :
    Reached config fleet ⟨.busy next report.toList ledger, ended ++ report.toList, commits⟩ ∧
      fleet.Serves next.world := by
  obtain ⟨place, task, now, world, task', worker, htask, hstep, rfl⟩ :=
    Dispatch.step?_eq_some hn
  have hact := h.step (.act now hs.answers htask hstep)
  constructor
  · have hw : world.Retains _ := Dispatch.retains_release { d with
      clock := now, world, tasks := d.tasks.set place task' } worker
    exact hact.step (.turn (Dispatch.tasks_release _ worker) hw rfl)
  · have hs := hs.step task d.control d.wall now
    rw [hstep] at hs
    intro relay
    rw [World.Serves, Dispatch.network_release]
    exact hs relay

/-- The moves of a whole cycle, each report being noted at once. -/
theorem Reached.run (control : Control) (d : Dispatch) (ledger : Ledger)
    (h : Reached config fleet ⟨.busy d [] ledger, ended, commits⟩) (hs : fleet.Serves d.world) :
    let (d', ledger') := d.run (Ledger.noteAt control) ledger
    fleet.Serves d'.world ∧
      ∃ ended' commits', Reached config fleet ⟨.busy d' [] ledger', ended', commits'⟩ := by
  fun_induction Dispatch.run (Ledger.noteAt control) d ledger generalizing ended commits with
  | case1 d ledger hn => exact ⟨hs, ended, commits, h⟩
  | case2 d ledger next report hn ih =>
    obtain ⟨hmove, hserves⟩ := h.move hs hn
    cases report with
    | none => exact ih hmove hserves
    | some r => exact ih (hmove.step (.note control next.clock r)) hserves

end History

namespace Coordinator

/-- No relay that is listed is asked for more than it sends. -/
def Fits (fleet : Fleet) (c : Coordinator) : Prop :=
  ∀ relays, c.directory.listEligible = .ok relays →
    ∀ relay ∈ relays, (c.config.settings relay).resultCap ≤ fleet.cap relay.id

/-- A history has led the coordinator to where it stands, and its relays serve. -/
structure Stands (fleet : Fleet) (c : Coordinator) : Prop where
  serves : fleet.Serves c.world
  fits : c.Fits fleet
  reached : ∃ ended commits,
    History.Reached c.config fleet ⟨.idle c.world c.watermarks, ended, commits⟩

variable {fleet : Fleet}

theorem config_runCycle (c : Coordinator) (wall : UInt64) :
    (c.runCycle wall).coordinator.config = c.config ∧
      (c.runCycle wall).coordinator.directory = c.directory := by
  unfold runCycle
  split
  · exact ⟨rfl, rfl⟩
  · split
    · exact ⟨rfl, rfl⟩
    · dsimp only
      split <;> exact ⟨rfl, rfl⟩

/-- **A cycle is a history.** -/
theorem Stands.runCycle {c : Coordinator} (h : c.Stands fleet) (wall : UInt64) :
    (c.runCycle wall).coordinator.Stands fleet := by
  obtain ⟨hconfig, hdirectory⟩ := c.config_runCycle wall
  have hfits : (c.runCycle wall).coordinator.Fits fleet := by
    rw [Fits, hconfig, hdirectory]
    exact h.fits
  obtain ⟨hs, hf, ended, commits, hr⟩ := h
  cases hstate : c.state.refusal? with
  | some fault =>
    rw [Coordinator.runCycle, hstate]
    exact ⟨hs, hf, ended, commits, hr⟩
  | none =>
    cases hp : plan c.config c.directory c.watermarks wall with
    | error fault =>
      rw [Coordinator.runCycle, hstate, hp]
      exact ⟨hs, hf, ended, commits, hr⟩
    | ok jobs =>
      obtain ⟨hworld, hmarks⟩ := runCycle_of_plan hstate hp rfl
      have hcap : ∀ job ∈ jobs, job.settings.resultCap ≤ fleet.cap job.relay.id := by
        intro job hj
        obtain ⟨⟨relays, hlist, hmem⟩, hsettings, -⟩ := of_mem_plan hp hj
        rw [hsettings]
        exact hf relays hlist job.relay hmem
      have hbegin := hr.step (.begin_ c.pause c.refused c.control c.clock hp hcap rfl)
      obtain ⟨_, hnoted⟩ := hbegin.noteAll c.control c.clock
      obtain ⟨hserves, ended', commits', hrun⟩ := hnoted.run c.control _ _ hs
      refine ⟨?_, hfits, ended', commits', ?_⟩
      · rw [hworld]
        exact hserves
      · rw [hconfig, hworld, hmarks]
        exact hrun.step .leave

/-- **A whole run of a coordinator is a history.** -/
theorem Stands.runUntil {c : Coordinator} (h : c.Stands fleet) (instant : Nat) (wall : UInt64)
    {ran : Ran Unit} (hr : c.runUntil instant wall = some ran) : ran.coordinator.Stands fleet := by
  fun_induction Coordinator.runUntil c instant wall generalizing ran with
  | case1 c _ =>
    obtain rfl := Option.some.inj hr
    exact ⟨h.serves, h.fits, h.reached⟩
  | case2 c _ =>
    obtain rfl := Option.some.inj hr
    exact h.runCycle wall
  | case3 c _ => cases hr
  | case4 =>
    rename_i ih
    obtain ⟨rest, hrest, rfl⟩ := Option.map_eq_some_iff.mp hr
    have hc := h.runCycle wall
    have hlast := ih ⟨hc.serves, hc.fits, hc.reached⟩ hrest
    exact hlast

end Coordinator

end Harvest
