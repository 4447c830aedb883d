import Harvest.Proofs.Coordinator.Deadline
import Harvest.Proofs.Coordinator.Isolation
import Harvest.Proofs.Coordinator.Stream
import Harvest.Proofs.Session.Pacing

/-! The queries to a relay from one cycle to the next. In a cycle each relay has one session, and
that keeps the interval. The next session begins with a pacer that has no stamp, so between cycles
nothing but the clock keeps the queries apart: they are as far from each other as the end of a cycle
is from the start of the next, and no farther. -/

namespace Harvest

namespace Asked

/-- The queries to one relay. -/
def of (relay : RelayId) (asked : List Asked) : List Asked := asked.filter (·.relay = relay)

/-- Any two of these queries, of which the latest is the first, are at least a span apart. -/
def Spaced (span : Nat) (asked : List Asked) : Prop :=
  asked.Pairwise fun later earlier => earlier.at_ + span ≤ later.at_

variable {relay : RelayId} {asked fresh : List Asked}

theorem of_append (relay : RelayId) (fresh asked : List Asked) :
    of relay (fresh ++ asked) = of relay fresh ++ of relay asked := List.filter_append ..

theorem of_own (h : ∀ a ∈ asked, a.relay = relay) : of relay asked = asked :=
  List.filter_eq_self.mpr fun a ha => decide_eq_true (h a ha)

theorem of_others (h : ∀ a ∈ asked, a.relay ≠ relay) : of relay asked = [] :=
  List.filter_eq_nil_iff.mpr fun a ha => by simpa using h a ha

theorem mem_of {a : Asked} (h : a ∈ of relay asked) : a ∈ asked := (List.mem_filter.mp h).1

theorem Spaced.mono {span span' : Nat} (h : Spaced span asked) (hle : span' ≤ span) :
    Spaced span' asked :=
  h.imp fun {_ _} hs => Nat.le_trans (Nat.add_le_add_left hle _) hs

/-- What comes after a pause is far enough from what came before it. -/
theorem Spaced.append {span : Nat} (h : Spaced span fresh) (h' : Spaced span asked)
    (hfar : ∀ later ∈ fresh, ∀ earlier ∈ asked, earlier.at_ + span ≤ later.at_) :
    Spaced span (fresh ++ asked) := List.pairwise_append.mpr ⟨h, h', hfar⟩

end Asked

/-! ## One cycle -/

/-- A session that begins before it is to stop has nothing to do before it begins. -/
theorem Session.le_due_start {c : Control} {job : Job} {wall : UInt64} {now due : Nat}
    (hc : c.stopAt?.any (· ≤ now) = false) (hd : (start job wall now).due? c = some due) :
    now ≤ due := by
  unfold due? at hd
  split at hd
  · rename_i ready cut reason hready hcut
    obtain rfl : now = ready := Option.some.inj hready
    obtain rfl := Option.some.inj hd
    refine Nat.le_min.mpr ⟨Nat.le_refl _, ?_⟩
    rcases of_cutOff? hcut with rfl | hcancel
    · exact Nat.le_add_right ..
    · obtain ⟨stop, hstop, hle⟩ := Control.stopAt?_of_cancelAt hcancel
      rw [hstop] at hc
      have hlate : ¬ stop ≤ now := of_decide_eq_false hc
      omega
  · rename_i ready hready _
    obtain rfl : now = ready := Option.some.inj hready
    exact Nat.le_of_eq (Option.some.inj hd)
  · cases hd

namespace Task

/-- Where a task stands when these queries have been sent since an instant: the relay of the task
was asked by nobody but its session. -/
structure Polite (c : Control) (since : Nat) (asked : List Asked) (t : Task) : Prop where
  spaced : Asked.Spaced t.job.settings.minInterval (Asked.of t.job.relay.id asked)
  waiting : t.progress.isWaiting = true → Asked.of t.job.relay.id asked = []
  session : ∀ s, t.progress = .running s → s.job = t.job ∧ s.isOver = false ∧
    s.Paced (Asked.of t.job.relay.id asked) ∧ ∀ due, s.due? c = some due → since ≤ due

variable {c : Control} {since now : Nat} {asked : List Asked} {t : Task}

/-- Queries to other relays do not matter. -/
theorem Polite.frame (h : t.Polite c since asked) {fresh : List Asked}
    (hf : ∀ a ∈ fresh, a.relay ≠ t.job.relay.id) : t.Polite c since (fresh ++ asked) := by
  have hsame : Asked.of t.job.relay.id (fresh ++ asked) = Asked.of t.job.relay.id asked := by
    rw [Asked.of_append, Asked.of_others hf, List.nil_append]
  exact ⟨hsame ▸ h.spaced, hsame ▸ h.waiting, hsame ▸ h.session⟩

/-- Who is over does not ask any more. -/
theorem polite_of_isOver (ho : t.isOver = true)
    (hs : Asked.Spaced t.job.settings.minInterval (Asked.of t.job.relay.id asked)) :
    t.Polite c since asked := by
  obtain ⟨ending, hended⟩ := ended_of_isOver ho
  refine ⟨hs, fun hw => ?_, fun s hr => ?_⟩
  · rw [hended] at hw
    cases hw
  · rw [hended] at hr
    cases hr

/-- Who has waited and begins has not asked yet, and its session begins no earlier than now. -/
theorem Polite.step_waiting (h : t.Polite c since asked) (hs : since ≤ now)
    (hw : t.progress.isWaiting = true) (wall : UInt64) (world : World) :
    (t.step c wall now world).1 = world ∧
      (t.step c wall now world).2.1.Polite c since asked := by
  have hjob := (t.job_step c wall now world).1
  refine ⟨?_, ?_⟩
  · rw [Task.step]
    cases hp : t.progress with
    | running => rw [hp] at hw; cases hw
    | _ => rfl
  · rcases acts_waiting c wall hw now world with ⟨hc, -, hp | hp⟩ | ⟨-, -, hp⟩
    · refine ⟨hjob.symm ▸ h.spaced, fun _ => hjob.symm ▸ h.waiting hw, fun s hr => ?_⟩
      rw [hr] at hp
      cases hp
    · refine ⟨hjob.symm ▸ h.spaced, fun _ => hjob.symm ▸ h.waiting hw, fun s hr => ?_⟩
      obtain rfl := Progress.running.inj (hp.symm.trans hr)
      rw [hjob, h.waiting hw]
      refine ⟨rfl, rfl, Session.paced_start .., fun due hdue => ?_⟩
      exact Nat.le_trans hs (Session.le_due_start hc hdue)
    · exact polite_of_isOver (by rw [isOver, hp]) (hjob.symm ▸ h.spaced)

/-- Who runs asks as its session does, at the instant that the session waits for. -/
theorem Polite.step_running (h : t.Polite c since asked) {s : Session}
    (hp : t.progress = .running s) (wall : UInt64) (world : World) :
    ∃ fresh, (t.step c wall now world).1.network.asked = fresh ++ world.network.asked ∧
      (∀ a ∈ fresh, a.relay = t.job.relay.id ∧ since ≤ a.at_ ∧ s.due? c = some a.at_) ∧
      (t.step c wall now world).2.1.Polite c since (fresh ++ asked) := by
  have hjob := (t.job_step c wall now world).1
  obtain ⟨hsame, ho, hpaced, hlate⟩ := h.session s hp
  obtain ⟨fresh, hfresh, hnext, hat⟩ := hpaced.step ho c world
  have hworld : (t.step c wall now world).1 = (s.step c world).1 := by rw [Task.step, hp]
  have hkept : (s.step c world).2.job = t.job := (Session.leads_step s world c).2.1.trans hsame
  have hown : ∀ a ∈ fresh, a.relay = t.job.relay.id := by
    intro a ha
    rw [hnext.own a (List.mem_append_left _ ha), Session.relay, hkept]
  have hof : Asked.of t.job.relay.id (fresh ++ asked) =
      fresh ++ Asked.of t.job.relay.id asked := by
    rw [Asked.of_append, Asked.of_own hown]
  have hspaced : Asked.Spaced t.job.settings.minInterval
      (Asked.of t.job.relay.id (fresh ++ asked)) := by
    have hsettings : (s.step c world).2.settings = t.job.settings := by
      rw [Session.settings, hkept]
    rw [hof, ← hsettings]
    exact hnext.apart
  refine ⟨fresh, hworld ▸ hfresh, fun a ha => ⟨hown a ha, hlate _ (hat a ha), hat a ha⟩, ?_⟩
  rcases acts_running c wall hp now world with ⟨ho', -, hp'⟩ | ⟨_, -, -, hp'⟩ | ⟨-, -, -, hp'⟩
  · refine ⟨hjob.symm ▸ hspaced, fun hn => ?_, fun s' hr => ?_⟩
    · rw [hp'] at hn
      cases hn
    · obtain rfl := Progress.running.inj (hp'.symm.trans hr)
      rw [hjob, hof]
      refine ⟨hkept, ho', hnext, fun due hdue => ?_⟩
      obtain ⟨now', hnow, -⟩ := Session.comes_step ho c world
      exact Nat.le_trans (hlate _ hnow) (Session.due_le_due hnow world hdue)
  · exact polite_of_isOver (by rw [isOver, hp']) (hjob.symm ▸ hspaced)
  · exact polite_of_isOver (by rw [isOver, hp']) (hjob.symm ▸ hspaced)

/-- A move asks the relay of the task only, and only at the instant that its session waits for. -/
theorem Polite.step (h : t.Polite c since asked) (hs : since ≤ now) (hover : t.isOver = false)
    (hd : ∀ s due, t.progress = .running s → s.due? c = some due → due ≤ now) (wall : UInt64)
    (world : World) :
    ∃ fresh, (t.step c wall now world).1.network.asked = fresh ++ world.network.asked ∧
      (∀ a ∈ fresh, a.relay = t.job.relay.id ∧ since ≤ a.at_ ∧ a.at_ ≤ now) ∧
      (t.step c wall now world).2.1.Polite c since (fresh ++ asked) := by
  cases hw : t.progress.isWaiting with
  | true =>
    obtain ⟨hworld, hnext⟩ := h.step_waiting hs hw wall world
    exact ⟨[], by rw [hworld, List.nil_append], fun _ ha => (by cases ha), hnext⟩
  | false =>
    cases hp : t.progress with
    | staggering | queued => rw [hp] at hw; cases hw
    | ended => rw [isOver, hp] at hover; cases hover
    | running s =>
      obtain ⟨fresh, hfresh, hat, hnext⟩ := h.step_running hp wall world
      refine ⟨fresh, hfresh, fun a ha => ?_, hnext⟩
      obtain ⟨hown, hlate, hdue⟩ := hat a ha
      exact ⟨hown, hlate, hd s _ hp hdue⟩

end Task

namespace Dispatch

/-- What a dispatch has asked by now, since it was `first`. -/
structure Polite (first d : Dispatch) (asked : List Asked) : Prop where
  network : d.world.network.asked = asked ++ first.world.network.asked
  span : ∀ a ∈ asked, first.clock ≤ a.at_ ∧ a.at_ ≤ d.clock
  tasks : ∀ t ∈ d.tasks, t.Polite first.control first.clock asked

variable {first d : Dispatch} {acts : List Act}

theorem Trail.jobs (h : Trail first acts d) :
    d.tasks.map Task.job = first.tasks.map Task.job := by
  have hposts := congrArg (List.map Prod.snd) h.posts
  rw [List.map_map, List.map_map] at hposts
  exact hposts

/-- Tasks keep their places, and each has a relay of its own if no two had the same. -/
theorem Trail.place_inj (h : Trail first acts d)
    (hids : (first.tasks.map fun t => t.job.relay.id).Nodup) {place i : Nat} {task t : Task}
    (ht : d.tasks[place]? = some task) (hi : d.tasks[i]? = some t)
    (hrelay : t.job.relay.id = task.job.relay.id) : place = i := by
  have hnodup : (d.tasks.map fun t => t.job.relay.id).Nodup := by
    have hsame := congrArg (List.map fun job => job.relay.id) h.jobs
    rw [List.map_map, List.map_map] at hsame
    exact (show d.tasks.map (fun t => t.job.relay.id) = _ from hsame) ▸ hids
  have hlt : place < (d.tasks.map fun t => t.job.relay.id).length := by
    rw [List.length_map]
    exact (List.getElem?_eq_some_iff.mp ht).1
  refine (List.getElem?_inj hlt hnodup).mp ?_
  rw [List.getElem?_map, List.getElem?_map, ht, hi, Option.map_some, Option.map_some, hrelay]

/-- **Whoever moves next, each relay is asked by its own session only**, if no two have the same. -/
theorem Trail.polite (h : Trail first acts d)
    (hids : (first.tasks.map fun t => t.job.relay.id).Nodup)
    (hn : ∀ t ∈ first.tasks, ∀ s, t.progress ≠ .running s) :
    first.clock ≤ d.clock ∧ ∃ asked, first.Polite d asked := by
  induction h with
  | start =>
    refine ⟨Nat.le_refl _, [], rfl, fun _ ha => (by cases ha), fun t ht => ?_⟩
    exact ⟨.nil, fun _ => rfl, fun s hs => absurd hs (hn t ht s)⟩
  | move h ht hd ih =>
    rename_i acts d place task now
    obtain ⟨hclock, asked, hpolite⟩ := ih
    obtain ⟨hover, hnow⟩ := of_due? hd
    have hcontrol : d.control = first.control := h.keeps.2.1
    have hwait : ∀ s due, task.progress = .running s → s.due? d.control = some due → due ≤ now := by
      intro s due hs hdue
      rw [due?_running hs hdue] at hd
      exact Option.some.inj hd ▸ Nat.le_max_right ..
    have htask := hpolite.tasks task (List.mem_of_getElem? ht)
    rw [← hcontrol] at htask
    obtain ⟨fresh, hfresh, hat, hnext⟩ :=
      htask.step (Nat.le_trans hclock hnow) hover hwait d.wall d.world
    have hshown : (d.moved place task now).clock = now := (moved_keeps ..).2.2.2
    refine ⟨by rw [hshown]; exact Nat.le_trans hclock hnow, fresh ++ asked, ?_, ?_, ?_⟩
    · rw [moved_eq, network_release]
      exact hfresh.trans (by rw [hpolite.network, List.append_assoc])
    · intro a ha
      rw [hshown]
      rcases List.mem_append.mp ha with ha | ha
      · exact (hat a ha).2
      · exact ⟨(hpolite.span a ha).1, Nat.le_trans (hpolite.span a ha).2 hnow⟩
    · rw [tasks_moved]
      intro t ht'
      obtain ⟨i, hi⟩ := List.mem_iff_getElem?.mp ht'
      by_cases hplace : place = i
      · subst i
        rw [List.getElem?_set_self (List.getElem?_eq_some_iff.mp ht).1] at hi
        obtain rfl := Option.some.inj hi
        exact hcontrol ▸ hnext
      · rw [List.getElem?_set_ne hplace] at hi
        refine (hpolite.tasks t (List.mem_of_getElem? hi)).frame fun a ha he => hplace ?_
        -- another task has another relay
        exact h.place_inj hids ht hi (he.symm.trans (hat a ha).1)

end Dispatch

/-! ## From cycle to cycle -/

namespace Coordinator

/-- What a cycle leaves of a coordinator when its moves have ended like this. -/
def leave (c : Coordinator) (wall : UInt64) (jobs : List Job) (ended : Dispatch × Ledger) :
    Coordinator :=
  let ledger := ended.2.heed c.control ended.1.clock
  let after :=
    { c with
      clock := ended.1.clock, world := ended.1.world, watermarks := ledger.watermarks
      opened := c.opened + (c.begun wall jobs).1.handles.length }
  let state := after.conclude ledger c.clock jobs.length
  { after with state := if state = .stopped then .stopped else .idle }

variable {c first : Coordinator} {wall : UInt64} {jobs : List Job} {relays : List Relay}

theorem coordinator_runCycle (hs : c.state.refusal? = none)
    (hp : plan c.config c.directory c.watermarks wall = .ok jobs) :
    (c.runCycle wall).coordinator =
      c.leave wall jobs
        ((c.begun wall jobs).1.run (Ledger.noteAt c.control) (c.begun wall jobs).2) := by
  rw [runCycle_eq_sumUp hs hp]
  rfl

/-- The sessions of a cycle over jobs of different relays keep the intervals of the jobs. -/
theorem polite_cycle (c : Coordinator) (wall : UInt64)
    (hids : (jobs.map fun job => job.relay.id).Nodup) :
    let ended := (c.begun wall jobs).1.run (Ledger.noteAt c.control) (c.begun wall jobs).2
    c.clock ≤ ended.1.clock ∧
      ∃ fresh, ended.1.world.network.asked = fresh ++ c.world.network.asked ∧
        (∀ a ∈ fresh, c.clock ≤ a.at_ ∧ a.at_ ≤ ended.1.clock) ∧
        ∀ job ∈ jobs, Asked.Spaced job.settings.minInterval (Asked.of job.relay.id fresh) := by
  intro ended
  obtain ⟨acts, htrail, -⟩ := c.cycle_trail wall jobs
  have htrail : Dispatch.Trail (c.begun wall jobs).1 acts ended.1 := htrail
  have hdealt : ((c.begun wall jobs).1.tasks.map Task.job).Perm jobs := by
    rw [jobs_begun]
    exact Shard.deal_perm ..
  have hdistinct : ((c.begun wall jobs).1.tasks.map fun t => t.job.relay.id).Nodup := by
    have hperm := hdealt.map fun job => job.relay.id
    rw [List.map_map] at hperm
    exact hperm.nodup_iff.mpr hids
  obtain ⟨hclock, fresh, hpolite⟩ := htrail.polite hdistinct
    fun t ht => (Dispatch.mem_tasks_begin ht).2
  refine ⟨hclock, fresh, hpolite.network, hpolite.span, fun job hj => ?_⟩
  rw [← hdealt.mem_iff, ← htrail.jobs] at hj
  obtain ⟨t, ht, rfl⟩ := List.mem_map.mp hj
  exact (hpolite.tasks t ht).spaced

/-- What a cycle has asked by its end, which it has found no later than its deadline. -/
structure Asks (relays : List Relay) (c after : Coordinator) (fresh : List Asked) : Prop where
  network : after.world.network.asked = fresh ++ c.world.network.asked
  clock : c.clock ≤ after.clock ∧ after.clock ≤ c.clock + c.config.cycleDeadline
  span : ∀ a ∈ fresh, c.clock ≤ a.at_ ∧ a.at_ ≤ after.clock
  spaced : ∀ relay ∈ relays,
    Asked.Spaced (c.config.settings relay).minInterval (Asked.of relay.id fresh)

/-- **In a cycle the queries to each relay are kept apart.** -/
theorem asks_runCycle (hl : c.directory.listEligible = .ok relays)
    (hids : (relays.map Relay.id).Nodup) (wall : UInt64) :
    ∃ fresh, Asks relays c (c.runCycle wall).coordinator fresh := by
  have still : Asks relays c c [] := {
    network := rfl
    clock := ⟨Nat.le_refl _, Nat.le_add_right ..⟩
    span := fun _ ha => by cases ha
    spaced := fun _ _ => .nil }
  cases hs : c.state.refusal? with
  | some fault => exact ⟨[], by simpa only [runCycle, hs] using still⟩
  | none =>
    rcases c.plan_cases wall with ⟨-, fault, hp⟩ | ⟨-, listed, hl', hp⟩
    · exact ⟨[], by simpa only [runCycle, hs, hp] using still⟩
    · obtain rfl := Except.ok.inj (hl.symm.trans hl')
      have hdistinct : ((relays.map (c.jobFor wall)).map fun job => job.relay.id).Nodup := by
        rw [List.map_map]
        exact hids
      obtain ⟨hclock, fresh, hnetwork, hspan, hspaced⟩ := c.polite_cycle wall hdistinct
      have helapsed := (c.elapsed_le wall (relays.map (c.jobFor wall))).1
      rw [elapsed_execute] at helapsed
      rw [coordinator_runCycle hs hp]
      refine ⟨fresh, hnetwork, ⟨hclock, ?_⟩, hspan, fun relay hm => ?_⟩
      · exact Nat.sub_le_iff_le_add'.mp helapsed
      · exact hspaced _ (List.mem_map_of_mem hm)

/-- Cycles of a coordinator, each of which starts at least a pause after the end of the one
before. -/
inductive Cycles (pause : Nat) (first : Coordinator) : Coordinator → Prop
  | once (wall : UInt64) : Cycles pause first (first.runCycle wall).coordinator
  | again {c : Coordinator} (h : Cycles pause first c) {instant : Nat}
      (hp : c.clock + pause ≤ instant) (wall : UInt64) :
      Cycles pause first ((c.waitUntil instant).runCycle wall).coordinator

/-- What the relays were asked since a coordinator was `first`: as long as it waits, for at least a
pause in all, before it starts another cycle, no query comes too soon. -/
structure Courteous (pause : Nat) (relays : List Relay) (first c : Coordinator)
    (asked : List Asked) : Prop where
  config : c.config = first.config
  directory : c.directory = first.directory
  network : c.world.network.asked = asked ++ first.world.network.asked
  past : ∀ a ∈ asked, a.at_ ≤ c.clock
  spaced : ∀ relay ∈ relays, Asked.Spaced (min pause (first.config.settings relay).minInterval)
    (Asked.of relay.id asked)

variable {pause : Nat} {asked : List Asked}

theorem courteous_start (pause : Nat) (relays : List Relay) (first : Coordinator) :
    Courteous pause relays first first [] where
  config := rfl
  directory := rfl
  network := rfl
  past _ ha := by cases ha
  spaced _ _ := .nil

theorem Courteous.waitUntil (h : Courteous pause relays first c asked) (instant : Nat) :
    Courteous pause relays first (c.waitUntil instant) asked :=
  ⟨h.config, h.directory, h.network, fun a ha => Nat.le_trans (h.past a ha) (Nat.le_max_left ..),
    h.spaced⟩

/-- **A cycle that starts a pause after all that was asked** asks nothing too soon. -/
theorem Courteous.runCycle (h : Courteous pause relays first c asked)
    (hl : first.directory.listEligible = .ok relays) (hids : (relays.map Relay.id).Nodup)
    (hp : ∀ a ∈ asked, a.at_ + pause ≤ c.clock) (wall : UInt64) :
    ∃ fresh, Courteous pause relays first (c.runCycle wall).coordinator (fresh ++ asked) ∧
      (c.runCycle wall).coordinator.clock ≤ c.clock + c.config.cycleDeadline := by
  obtain ⟨hconfig, hdirectory⟩ := c.config_runCycle wall
  rw [← h.directory] at hl
  obtain ⟨fresh, hasks⟩ := asks_runCycle hl hids wall
  refine ⟨fresh, ⟨hconfig.trans h.config, hdirectory.trans h.directory, ?_, ?_, ?_⟩,
    hasks.clock.2⟩
  · rw [hasks.network, h.network, List.append_assoc]
  · intro a ha
    rcases List.mem_append.mp ha with ha | ha
    · exact (hasks.span a ha).2
    · exact Nat.le_trans (h.past a ha) hasks.clock.1
  · intro relay hm
    rw [Asked.of_append]
    refine ((h.config ▸ hasks.spaced relay hm).mono (Nat.min_le_right ..)).append
      (h.spaced relay hm) fun later hlater earlier hearlier => ?_
    have hpause := hp earlier (Asked.mem_of hearlier)
    have hstart := (hasks.span later (Asked.mem_of hlater)).1
    have hmin := Nat.min_le_left pause (first.config.settings relay).minInterval
    omega

theorem Cycles.courteous (h : Cycles pause first c)
    (hl : first.directory.listEligible = .ok relays) (hids : (relays.map Relay.id).Nodup) :
    ∃ asked, Courteous pause relays first c asked := by
  induction h with
  | once wall =>
    obtain ⟨fresh, hnext, -⟩ := (courteous_start pause relays first).runCycle hl hids
      (fun _ ha => by cases ha) wall
    exact ⟨_, hnext⟩
  | again h hp wall ih =>
    rename_i c instant
    obtain ⟨asked, hc⟩ := ih
    have hfar : ∀ a ∈ asked, a.at_ + pause ≤ (c.waitUntil instant).clock := by
      intro a ha
      have hpast := hc.past a ha
      have hwaits : instant ≤ (c.waitUntil instant).clock := Nat.le_max_right ..
      omega
    obtain ⟨fresh, hnext, -⟩ := (hc.waitUntil instant).runCycle hl hids hfar wall
    exact ⟨_, hnext⟩

/-- **A whole run starts a cycle no sooner than an interval after the start of the one before**,
which is over by its deadline. -/
theorem Courteous.runUntil {instant : Nat} {ran : Ran Unit}
    (hl : first.directory.listEligible = .ok relays) (hids : (relays.map Relay.id).Nodup)
    (hpause : pause = first.config.cycleInterval - first.config.cycleDeadline)
    (h : Courteous pause relays first c asked)
    (hp : c.clock < instant → ∀ a ∈ asked, a.at_ + pause ≤ c.clock)
    (hr : c.runUntil instant wall = some ran) :
    ∃ all, Courteous pause relays first ran.coordinator all := by
  fun_induction Coordinator.runUntil c instant wall generalizing ran asked with
  | case1 c _ =>
    obtain rfl := Option.some.inj hr
    exact ⟨asked, h.config, h.directory, h.network, h.past, h.spaced⟩
  | case2 c hlater =>
    obtain rfl := Option.some.inj hr
    obtain ⟨fresh, hnext, -⟩ := h.runCycle hl hids (hp (Nat.lt_of_not_le hlater)) wall
    exact ⟨_, hnext⟩
  | case3 c _ => cases hr
  | case4 c hlater =>
    rename_i ih
    obtain ⟨rest, hrest, rfl⟩ := Option.map_eq_some_iff.mp hr
    obtain ⟨fresh, hnext, hends⟩ := h.runCycle hl hids (hp (Nat.lt_of_not_le hlater)) wall
    let next :=
      (c.runCycle wall).coordinator.waitUntil (min instant (c.clock + c.config.cycleInterval))
    have hfar : next.clock < instant → ∀ a ∈ fresh ++ asked, a.at_ + pause ≤ next.clock := by
      intro hsooner a ha
      have hpast := hnext.past a ha
      -- the next cycle starts, so it is not for the end of the run that this one has waited
      change max _ (min instant (c.clock + c.config.cycleInterval)) < instant at hsooner
      show a.at_ + pause ≤ max _ (min instant (c.clock + c.config.cycleInterval))
      rw [h.config] at hends hsooner ⊢
      omega
    obtain ⟨all, hall⟩ := ih (hnext.waitUntil _) hfar hrest
    exact ⟨all, hall.config, hall.directory, hall.network, hall.past, hall.spaced⟩

/-- A cycle whose moves are over after so many, if it can be planned. -/
def cycleWithin (moves : Nat) (wall : UInt64) (c : Coordinator) : Option Coordinator :=
  match c.state.refusal?, plan c.config c.directory c.watermarks wall with
  | none, .ok jobs =>
    let ended := Nat.repeat (Dispatch.advance (Ledger.noteAt c.control)) moves (c.begun wall jobs)
    if ended.1.step?.isNone then some (c.leave wall jobs ended) else none
  | _, _ => none

theorem runCycle_of_within {moves : Nat} {after : Coordinator}
    (h : cycleWithin moves wall c = some after) : (c.runCycle wall).coordinator = after := by
  unfold cycleWithin at h
  split at h
  · rename_i jobs hs hp
    dsimp only at h
    split at h
    · rename_i hover
      rw [coordinator_runCycle hs hp,
        Dispatch.run_eq_repeat rfl (Option.isNone_iff_eq_none.mp hover)]
      exact Option.some.inj h
    · cases h
  · cases h

/-- The coordinator at the end of a run, of which each cycle takes no more moves than this. -/
def runWithin (moves instant : Nat) (wall : UInt64) : Nat → Coordinator → Option Coordinator
  | 0, c => if instant ≤ c.clock then some c.stop.coordinator else none
  | cycles + 1, c =>
    if instant ≤ c.clock then some c.stop.coordinator
    else
      match cycleWithin moves wall c with
      | none => none
      | some after =>
        let next := after.waitUntil (min instant (c.clock + c.config.cycleInterval))
        if after.state = .stopped ∨ next.clock ≤ c.clock then none
        else runWithin moves instant wall cycles next

theorem runUntil_of_within {moves instant cycles : Nat} {after : Coordinator}
    (h : runWithin moves instant wall cycles c = some after) :
    ∃ ran, c.runUntil instant wall = some ran ∧ ran.coordinator = after := by
  induction cycles generalizing c with
  | zero =>
    unfold runWithin at h
    split at h
    · rename_i hover
      exact ⟨c.stop, by rw [Coordinator.runUntil, if_pos hover], Option.some.inj h⟩
    · cases h
  | succ cycles ih =>
    unfold runWithin at h
    split at h
    · rename_i hover
      exact ⟨c.stop, by rw [Coordinator.runUntil, if_pos hover], Option.some.inj h⟩
    · rename_i hlater
      split at h
      · cases h
      · rename_i mid hcycle
        obtain rfl := runCycle_of_within hcycle
        dsimp only at h
        split at h
        · cases h
        · rename_i hgoes
          obtain ⟨hrunning, hmoves⟩ := not_or.mp hgoes
          obtain ⟨ran, hran, rfl⟩ := ih h
          rw [Coordinator.runUntil, if_neg hlater]
          dsimp only
          rw [if_neg fun hs => hrunning hs.1, dif_neg hmoves, hran]
          exact ⟨_, rfl, rfl⟩

/-- **Queries to a relay come too soon only where cycles follow each other too soon.** In a cycle
each relay sees at most one query per interval. From one cycle to the next the queries are as far
apart as the cycles are, or as the interval asks for; in a whole run that is what the interval of
the cycles leaves after their deadline. -/
theorem cycles_paced (c : Coordinator) {relays : List Relay}
    (hl : c.directory.listEligible = .ok relays) (hids : (relays.map Relay.id).Nodup) :
    (∀ wall, ∃ fresh, Asks relays c (c.runCycle wall).coordinator fresh) ∧
    (∀ pause after, Cycles pause c after →
      ∃ asked, after.world.network.asked = asked ++ c.world.network.asked ∧
        ∀ relay ∈ relays, Asked.Spaced (min pause (c.config.settings relay).minInterval)
          (Asked.of relay.id asked)) ∧
    ∀ instant wall ran, c.runUntil instant wall = some ran →
      ∃ asked, ran.coordinator.world.network.asked = asked ++ c.world.network.asked ∧
        ∀ relay ∈ relays, Asked.Spaced
          (min (c.config.cycleInterval - c.config.cycleDeadline)
            (c.config.settings relay).minInterval) (Asked.of relay.id asked) := by
  refine ⟨asks_runCycle hl hids, fun pause after h => ?_, fun instant wall ran hr => ?_⟩
  · obtain ⟨asked, hc⟩ := h.courteous hl hids
    exact ⟨asked, hc.network, hc.spaced⟩
  · obtain ⟨asked, hc⟩ := (courteous_start _ relays c).runUntil hl hids rfl
      (fun _ _ ha => by cases ha) hr
    exact ⟨asked, hc.network, hc.spaced⟩

/-- A cycle of 300 milliseconds every 600 leaves more than the 250 that the relay is to be given. -/
theorem cycles_paced_apart :
    let relay : Relay := { id := "relay" }
    let c : Coordinator :=
      { config := { cycleInterval := 600, cycleDeadline := 300 }
        directory := .memory { relays := [relay] }, watermarks := { store := .memory {} }
        world := { network := { peers := [("relay", .memory { events := [] })] }
                   sink := { depot := .memory {} } } }
    ∃ ran asked, c.runUntil 700 5 = some ran ∧ ran.coordinator.world.network.asked = asked ∧
      (Asked.of "relay" asked).map Asked.at_ = [600, 0] ∧
      Asked.Spaced 250 (Asked.of "relay" asked) := by
  intro relay c
  have hruns : (runWithin 24 700 5 2 c).map
      (fun after => (Asked.of "relay" after.world.network.asked).map Asked.at_) =
        some [600, 0] := by
    revert relay c
    decide +kernel
  obtain ⟨after, hafter, hat⟩ := Option.map_eq_some_iff.mp hruns
  obtain ⟨ran, hran, rfl⟩ := runUntil_of_within hafter
  have hl : c.directory.listEligible = .ok [relay] := rfl
  have hids : ([relay].map Relay.id).Nodup := List.pairwise_singleton ..
  obtain ⟨-, -, hpaced⟩ := cycles_paced c hl hids
  obtain ⟨asked, hasked, hspaced⟩ := hpaced 700 5 ran hran
  have hall : asked ++ c.world.network.asked = asked := List.append_nil asked
  rw [hall] at hasked
  rw [hasked] at hat
  have hspan : min (c.config.cycleInterval - c.config.cycleDeadline)
      (c.config.settings relay).minInterval = 250 := by decide
  exact ⟨ran, asked, hran, hasked, hat, hspan ▸ hspaced relay (List.mem_singleton_self relay)⟩

/-- A cycle every 100 milliseconds: a relay that is to be asked every 250 is asked in each. -/
theorem cycles_crowded :
    let relay : Relay := { id := "relay" }
    let c : Coordinator :=
      { config := { cycleInterval := 100, cycleDeadline := 90 }
        directory := .memory { relays := [relay] }, watermarks := { store := .memory {} }
        world := { network := { peers := [("relay", .memory { events := [] })] }
                   sink := { depot := .memory {} } } }
    (c.config.settings relay).minInterval = 250 ∧
      ∃ ran asked, c.runUntil 150 5 = some ran ∧ ran.coordinator.world.network.asked = asked ∧
        (Asked.of "relay" asked).map Asked.at_ = [100, 0] ∧
        ¬ Asked.Spaced 250 (Asked.of "relay" asked) := by
  intro relay c
  have hruns : (runWithin 24 150 5 2 c).map
      (fun after => (Asked.of "relay" after.world.network.asked).map Asked.at_) =
        some [100, 0] := by
    revert relay c
    decide +kernel
  obtain ⟨after, hafter, hat⟩ := Option.map_eq_some_iff.mp hruns
  obtain ⟨ran, hran, rfl⟩ := runUntil_of_within hafter
  refine ⟨rfl, ran, _, hran, rfl, hat, fun hspaced => ?_⟩
  have hinstants : ([100, 0] : List Nat).Pairwise fun later earlier => earlier + 250 ≤ later := by
    rw [← hat, List.pairwise_map]
    exact hspaced
  revert hinstants
  decide

end Coordinator

end Harvest
