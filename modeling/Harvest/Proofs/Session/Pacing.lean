import Harvest.Proofs.Session.Answered
import Harvest.Proofs.Session.Completeness
import Harvest.Proofs.Session.Outcomes
import Mathlib.Order.Bounds.Basic

/-! The queries of a session are kept apart. A pacer ends a wait at the first instant at which its
last stamp is long enough ago, and stamps that instant. A session asks in one stage only, at the
instant that its pacer has given for it, and no other move touches the pacer; so attempts that
fail, pauses and new connections come between two queries without bringing them closer. -/

namespace Harvest

/-- Of instants that are a span apart the first is the latest: what is a span after it is a span
after all of them. -/
theorem far_of_latest {f : α → Nat} {span t : Nat} {items : List α}
    (h : items.Pairwise fun later earlier => f earlier + span ≤ f later)
    (hlatest : ∀ a ∈ items.head?, f a + span ≤ t) : ∀ a ∈ items, f a + span ≤ t := by
  cases h with
  | nil => exact fun _ ha => absurd ha List.not_mem_nil
  | cons hbefore _ =>
    intro a ha
    have hle := hlatest _ rfl
    rcases List.mem_cons.mp ha with rfl | ha
    · exact hle
    · have := hbefore a ha
      omega

namespace Pacer

/-- What happens around a pacer: somebody waits for it, or time passes. -/
inductive Event
  | wait
  | pass (span : Nat)

/-- A wait: the instant at which it began, and the one at which it was over. -/
structure Grant where
  begun : Nat
  ended : Nat

/-- A pacer, what the clock shows, and the waits so far, the latest first. -/
structure Watch where
  pacer : Pacer
  now : Nat
  grants : List Grant := []

namespace Watch

def after (w : Watch) : Event → Watch
  | .wait =>
    let (ended, pacer) := w.pacer.wait w.now
    { pacer, now := ended, grants := ⟨w.now, ended⟩ :: w.grants }
  | .pass span => { w with now := w.now + span }

def run (w : Watch) (events : List Event) : Watch := events.foldl after w

end Watch

/-- The stamps after some waits, the latest first: before them the pacer may have had one. -/
def stamps (p : Pacer) (grants : List Grant) : List Nat := grants.map Grant.ended ++ p.last.toList

/-- A wait after earlier ones is as long as it has to be: it ends an interval after the last stamp
unless that was over when it began, and no instant before its end is far enough from all stamps. -/
structure Grant.Needed (p : Pacer) (earlier : List Grant) (g : Grant) : Prop where
  ended_eq : g.ended = max g.begun (((p.stamps earlier).head?.map (· + p.minInterval)).getD 0)
  least : IsLeast {t | g.begun ≤ t ∧ ∀ stamp ∈ p.stamps earlier, stamp + p.minInterval ≤ t} g.ended

/-- What holds of a pacer that began as `p`, whatever happened around it since. -/
structure Watch.Exact (p : Pacer) (w : Watch) : Prop where
  interval : w.pacer.minInterval = p.minInterval
  last : w.pacer.last = (p.stamps w.grants).head?
  apart : (p.stamps w.grants).Pairwise fun later earlier => earlier + p.minInterval ≤ later
  needed : ∀ g earlier, g :: earlier <:+ w.grants → g.Needed p earlier

variable {p : Pacer} {w : Watch}

theorem Watch.exact_start (p : Pacer) (now : Nat) : Exact p ⟨p, now, []⟩ where
  interval := rfl
  last := by cases hl : p.last <;> simp [stamps, hl]
  apart := by cases hl : p.last <;> simp [stamps, hl]
  needed g earlier h := by simp at h

/-- The next wait: the last stamp is the latest one, so what is far enough from it is far enough
from all. -/
theorem Watch.Exact.grant (h : w.Exact p) : Grant.Needed p w.grants ⟨w.now, w.pacer.due w.now⟩ := by
  have hover : w.pacer.due w.now =
      max w.now (((p.stamps w.grants).head?.map (· + p.minInterval)).getD 0) := by
    rw [due, ready?, h.last, h.interval]
  have hfar : ∀ stamp ∈ p.stamps w.grants, stamp + p.minInterval ≤ w.pacer.due w.now := by
    refine far_of_latest (f := id) h.apart fun last hlast => ?_
    rw [hover, Option.mem_def.mp hlast]
    exact Nat.le_max_right ..
  refine ⟨hover, ⟨Nat.le_max_left .., hfar⟩, ?_⟩
  rintro t ⟨hbegun, hstamps⟩
  show w.pacer.due w.now ≤ t
  rw [hover]
  cases hhead : (p.stamps w.grants).head? with
  | none => exact Nat.max_le.mpr ⟨hbegun, Nat.zero_le _⟩
  | some last => exact Nat.max_le.mpr ⟨hbegun, hstamps last (List.mem_of_mem_head? hhead)⟩

theorem Watch.Exact.after (h : w.Exact p) (event : Event) : (w.after event).Exact p := by
  cases event with
  | pass span => exact ⟨h.interval, h.last, h.apart, h.needed⟩
  | wait =>
    have hg := h.grant
    refine ⟨h.interval, rfl, ?_, ?_⟩
    · exact List.pairwise_cons.mpr ⟨hg.least.1.2, h.apart⟩
    · intro g earlier hs
      rcases List.suffix_cons_iff.mp hs with he | hs
      · obtain ⟨rfl, rfl⟩ := List.cons.inj he
        exact hg
      · exact h.needed g earlier hs

theorem Watch.Exact.run (h : w.Exact p) (events : List Event) : (w.run events).Exact p := by
  induction events generalizing w with
  | nil => exact h
  | cons event rest ih => exact ih (h.after event)

end Pacer

namespace Session

/-! ## Moves that do not ask -/

/-- A move at an instant that asks for nothing: the pacer stays as it is, and who goes on to wait
for it waits as long as it says. -/
structure Quiet (now : Nat) (world : World) (s : Session) (next : World × Session) : Prop where
  asked : next.1.network.asked = world.network.asked
  pacer : next.2.pacer = s.pacer
  due : ∀ w retries due, next.2.stage = .pacing w retries due → due = s.pacer.due now

variable {s : Session} {now : Nat} {world : World}

/-- What is counted, pending or owed makes no difference. -/
theorem Quiet.of_same {s' : Session} {next : World × Session} (h : Quiet now world s' next)
    (hp : s'.pacer = s.pacer) : Quiet now world s next :=
  ⟨h.asked, h.pacer.trans hp, hp ▸ h.due⟩

theorem Quiet.later {next : World × Session} {world' : World} (h : Quiet now world' s next)
    (ha : world'.network.asked = world.network.asked) : Quiet now world s next :=
  ⟨h.asked.trans ha, h.pacer, h.due⟩

theorem disconnect_asked (s : Session) (world : World) :
    (s.disconnect world).1.network.asked = world.network.asked ∧
      (s.disconnect world).2.pacer = s.pacer := by
  unfold disconnect
  split
  · exact ⟨World.asked_closed .., rfl⟩
  · exact ⟨rfl, rfl⟩

theorem asked_take (world : World) (b : Batch) (refusal : Option SinkFault) :
    (world.take b refusal).1.network.asked = world.network.asked := by
  rw [World.network_take]

variable (s now world)

theorem quiet_close (outcome : Outcome) : Quiet now world s (s.close outcome now world) := by
  obtain ⟨ha, hp⟩ := disconnect_asked s world
  exact ⟨ha, hp, fun _ _ _ hs => by cases hs⟩

theorem quiet_salvage (reason : AbandonReason) : Quiet now world s (s.salvage reason now world) :=
  ⟨rfl, rfl, fun _ _ _ hs => by cases hs⟩

theorem quiet_abandon (reason : AbandonReason) :
    Quiet now world s (s.abandon reason now world) := by
  simp only [abandon]
  split
  · exact (quiet_close _ now world _).of_same rfl
  · exact (quiet_salvage _ now world _).of_same rfl

theorem quiet_giveUp (reason : AbandonReason) : Quiet now world s (s.giveUp reason now world) :=
  (quiet_abandon _ now world reason).of_same rfl

theorem quiet_attempt (w : Window) (retries : Nat) :
    Quiet now world s (s.attempt w retries now world) := by
  unfold attempt
  split
  · refine ⟨rfl, rfl, ?_⟩
    intro _ _ due hs
    exact (Stage.pacing.inj hs).2.2.symm
  · exact ⟨World.asked_connect .., rfl, fun _ _ _ hs => by cases hs⟩

theorem quiet_fail (w : Window) (retries : Nat) (fault : LinkFault) :
    Quiet now world s (s.fail w retries fault now world) := by
  obtain ⟨ha, hp⟩ := disconnect_asked s world
  simp only [fail]
  split
  · exact ⟨ha, hp, fun _ _ _ hs => by cases hs⟩
  · exact ((quiet_giveUp _ now _ _).of_same (by exact hp)).later ha

theorem quiet_store (b : Batch) (retries : Nat) (after : After) :
    Quiet now world s (s.store b retries after now world) :=
  ⟨rfl, rfl, fun _ _ _ hs => by cases hs⟩

theorem quiet_flush (after : After) : Quiet now world s (s.flush after now world) :=
  (quiet_store _ now world _ _ _).of_same rfl

theorem quiet_advance (shutdown : Bool) : Quiet now world s (s.advance shutdown now world) := by
  unfold advance
  split
  · dsimp only
    split
    · exact (quiet_giveUp _ now world _).of_same rfl
    · exact (quiet_attempt _ now world _ _).of_same rfl
  · split
    · exact quiet_close s now world _
    · exact quiet_flush s now world _

theorem quiet_absorb (w : Window) (received : Nat) (oldest : Option Nat) (shutdown : Bool)
    (items : List Json) :
    Quiet now world s (s.absorb w received oldest shutdown now world items) := by
  rcases absorb_cases w received shutdown now world s oldest items with h | ⟨front, rest, -, h⟩
  · rw [h]
    exact (quiet_advance _ now world shutdown).of_same rfl
  · rw [h]
    exact (quiet_flush _ now world _).of_same rfl

theorem quiet_settle (b : Batch) (retries : Nat) (after : After) (refusal : Option SinkFault)
    (shutdown : Bool) :
    Quiet now world s (s.settle b retries after refusal shutdown now world) := by
  have ha := asked_take world b refusal
  unfold settle
  generalize world.take b refusal = taken at ha ⊢
  obtain ⟨world', result⟩ := taken
  refine Quiet.later ?_ ha
  cases result with
  | ok count =>
    dsimp only
    split
    · exact (quiet_absorb _ now world' _ _ _ _ _).of_same rfl
    · exact (quiet_close _ now world' _).of_same rfl
  | error fault =>
    dsimp only
    split
    · exact ⟨rfl, rfl, fun _ _ _ hs => by cases hs⟩
    · exact quiet_close s now world' _

theorem quiet_settleSalvage (b : Batch) (reason : AbandonReason) (heeds : Bool) :
    Quiet now world s (s.settleSalvage b reason heeds now world) := by
  have ha := asked_take world b none
  unfold settleSalvage
  split
  · generalize world.take b none = taken at ha ⊢
    obtain ⟨world', result⟩ := taken
    refine Quiet.later ?_ ha
    cases result with
    | ok count => exact (quiet_close _ now world' _).of_same rfl
    | error fault => exact quiet_close s now world' _
  · exact quiet_close s now world _

theorem quiet_interrupt (ho : s.isOver = false) (reason : AbandonReason) :
    Quiet now world s (s.interrupt reason now world) := by
  rcases s.interrupt_cases reason now world with ⟨hover, -⟩ | ⟨_, _, _, _, -, hi⟩ | ⟨-, -, hi⟩
  · rw [ho] at hover
    cases hover
  · rw [hi]
    exact quiet_close s now world _
  · rw [hi]
    exact quiet_abandon s now world reason

variable {s now} in
/-- Only in one stage does a session ask. -/
theorem quiet_proceed (hd : s.stage.due? = some now)
    (hs : ∀ w retries due, s.stage ≠ .pacing w retries due) (shutdown : Bool) :
    Quiet now world s (s.proceed shutdown world) := by
  unfold proceed
  cases hstage : s.stage with
  | ready due =>
    obtain rfl : due = now := by simpa [Stage.due?, hstage] using hd
    exact quiet_advance s due world shutdown
  | connecting w retries due result =>
    obtain rfl : due = now := by simpa [Stage.due?, hstage] using hd
    cases result with
    | opened =>
      refine ⟨World.asked_opened .., rfl, ?_⟩
      intro _ _ _ hn
      exact (Stage.pacing.inj hn).2.2.symm
    | failed fault => exact quiet_fail s due world w retries fault
    | crashed => exact ⟨rfl, rfl, fun _ _ _ hn => by cases hn⟩
  | pacing w retries due => exact absurd hstage (hs _ _ _)
  | querying w retries due result =>
    obtain rfl : due = now := by simpa [Stage.due?, hstage] using hd
    cases result with
    | ok reply => exact (quiet_absorb _ due world _ _ _ _ _).of_same rfl
    | error fault => exact quiet_fail s due world w retries fault
  | resting w retries due =>
    obtain rfl : due = now := by simpa [Stage.due?, hstage] using hd
    exact quiet_attempt s due world w retries
  | storing b retries after due refusal =>
    obtain rfl : due = now := by simpa [Stage.due?, hstage] using hd
    exact quiet_settle s due world b retries after refusal shutdown
  | storeResting b retries after due => exact ⟨rfl, rfl, fun _ _ _ hn => by cases hn⟩
  | salvaging b reason due heeds =>
    obtain rfl : due = now := by simpa [Stage.due?, hstage] using hd
    exact quiet_settleSalvage s due world b reason heeds
  | ended | crashed => simp [Stage.due?, hstage] at hd

/-! ## Moves that ask -/

variable {s}

/-- **A move asks for nothing, or sends the query that was waited for** at the very instant that
the pacer has given. -/
theorem step_quiet_or_asks (ho : s.isOver = false) (c : Control) (world : World) :
    ∃ now, s.due? c = some now ∧
      (Quiet now world s (s.step c world) ∨ ∃ w retries,
        s.stage = .pacing w retries now ∧ s.step c world = s.ask w retries now world) := by
  have goesOn {due : Nat} (hd : s.stage.due? = some due) :
      Quiet due world s (s.proceed (c.isShutDown due) world) ∨
        ∃ w retries, s.stage = .pacing w retries due ∧
          s.proceed (c.isShutDown due) world = s.ask w retries due world := by
    by_cases hs : ∃ w retries due, s.stage = .pacing w retries due
    · obtain ⟨w, retries, due', hs⟩ := hs
      obtain rfl : due' = due := by simpa [Stage.due?, hs] using hd
      exact .inr ⟨w, retries, hs, by rw [proceed, hs]⟩
    · exact .inl (quiet_proceed world hd (fun w retries due h => hs ⟨w, retries, due, h⟩) _)
  unfold due? step
  split
  · rename_i due t reason hd hc
    split
    · rename_i hle
      exact ⟨t, by rw [Nat.min_eq_right hle], .inl (quiet_interrupt s t world ho reason)⟩
    · rename_i hle
      exact ⟨due, by rw [Nat.min_eq_left (by omega)], goesOn hd⟩
  · rename_i due hd _
    exact ⟨due, rfl, goesOn hd⟩
  · rename_i hd
    rw [isOver, hd] at ho
    cases ho

/-- Where a session stands that has sent these queries, the latest first. The pacer has noted the
latest, and a query that is waited for will not be too close to it. -/
structure Paced (asked : List Asked) (s : Session) : Prop where
  own : ∀ a ∈ asked, a.relay = s.relay
  apart : asked.Pairwise fun later earlier => earlier.at_ + s.settings.minInterval ≤ later.at_
  interval : s.pacer.minInterval = s.settings.minInterval
  last : s.pacer.last = asked.head?.map Asked.at_
  due : ∀ w retries due, s.stage = .pacing w retries due → ∃ now, due = s.pacer.due now

theorem paced_start (job : Job) (wall : UInt64) (now : Nat) : Paced [] (start job wall now) where
  own a ha := by cases ha
  apart := .nil
  interval := rfl
  last := rfl
  due _ _ _ hs := by cases hs

variable {now world}

theorem Paced.quiet {asked : List Asked} {next : World × Session} (h : Paced asked s)
    (hq : Quiet now world s next) (hjob : next.2.job = s.job) : Paced asked next.2 where
  own := by
    rw [relay, hjob]
    exact h.own
  apart := by
    rw [settings, hjob]
    exact h.apart
  interval := by
    rw [hq.pacer, settings, hjob]
    exact h.interval
  last := hq.pacer ▸ h.last
  due w retries due hs := ⟨now, by rw [hq.pacer]; exact hq.due w retries due hs⟩

/-- A query that is waited for comes an interval after the latest, and so after all before it. -/
theorem Paced.far {asked : List Asked} (h : Paced asked s) {w : Window} {retries due : Nat}
    (hs : s.stage = .pacing w retries due) :
    ∀ a ∈ asked, a.at_ + s.settings.minInterval ≤ due := by
  obtain ⟨called, rfl⟩ := h.due w retries due hs
  refine far_of_latest h.apart fun latest hlatest => ?_
  rw [Pacer.due, Pacer.ready?, h.last, h.interval, Option.mem_def.mp hlatest]
  exact Nat.le_max_right ..

theorem Paced.ask {asked : List Asked} (h : Paced asked s) {w : Window} {retries due : Nat}
    (hs : s.stage = .pacing w retries due) :
    Paced (⟨s.relay, due, s.queryFor w⟩ :: asked) (s.ask w retries due world).2 where
  own := List.forall_mem_cons.mpr ⟨rfl, h.own⟩
  apart := List.pairwise_cons.mpr ⟨h.far hs, h.apart⟩
  interval := h.interval
  last := rfl
  due _ _ _ hn := by cases hn

/-- **Every move keeps the interval**: what it asks, if anything, it asks when it moves, and far
enough from all that was asked before. -/
theorem Paced.step {asked : List Asked} (h : Paced asked s) (ho : s.isOver = false) (c : Control)
    (world : World) :
    ∃ fresh, (s.step c world).1.network.asked = fresh ++ world.network.asked ∧
      Paced (fresh ++ asked) (s.step c world).2 ∧ ∀ a ∈ fresh, s.due? c = some a.at_ := by
  obtain ⟨now, hdue, hq | ⟨w, retries, hs, hstep⟩⟩ := step_quiet_or_asks ho c world
  · exact ⟨[], hq.asked, h.quiet hq (leads_step s world c).2.1, fun _ ha => by cases ha⟩
  · rw [hstep]
    refine ⟨[⟨s.relay, now, s.queryFor w⟩], World.asked_query .., h.ask hs, fun a ha => ?_⟩
    obtain rfl := List.mem_singleton.mp ha
    exact hdue

end Session

/-! ## Whole sessions -/

/-- The queries that were sent since a world, the latest first. -/
def World.askedSince (before after : World) : List Asked :=
  after.network.asked.take (after.network.asked.length - before.network.asked.length)

theorem World.askedSince_eq {before after : World} {fresh : List Asked}
    (h : after.network.asked = fresh ++ before.network.asked) :
    before.askedSince after = fresh := by
  rw [askedSince, h, List.length_append, Nat.add_sub_cancel, List.take_left]

namespace Session

/-- What a session asks from a moment on, the latest query first, in whatever worlds the others
leave for its moves. -/
inductive Timeline (c : Control) (first : Session) : List Asked → Session → Prop
  | start : Timeline c first [] first
  | step {asked : List Asked} {s : Session} (h : Timeline c first asked s) (ho : s.isOver = false)
      (world : World) :
      Timeline c first (world.askedSince (s.step c world).1 ++ asked) (s.step c world).2

namespace Timeline

variable {c : Control} {first s : Session} {asked : List Asked}

theorem job (h : Timeline c first asked s) : s.job = first.job := by
  induction h with
  | start => rfl
  | step _ _ world ih => exact (leads_step _ world c).2.1.trans ih

theorem paced (h : Timeline c first asked s) (hf : Paced [] first) : Paced asked s := by
  induction h with
  | start => exact hf
  | step _ ho world ih =>
    obtain ⟨fresh, hfresh, hpaced, -⟩ := ih.step ho c world
    rw [World.askedSince_eq hfresh]
    exact hpaced

/-- All that a session asks in a run of its own is on its timeline. -/
theorem run (h : Timeline c first asked s) {old world : World}
    (hw : world.network.asked = asked ++ old.network.asked) :
    ∃ all, (s.run c world).1.network.asked = all ++ old.network.asked ∧
      Timeline c first all (s.run c world).2 := by
  fun_induction Session.run c world s generalizing asked with
  | case2 world s ho => exact ⟨asked, hw, h⟩
  | case1 world s ho ih =>
    obtain ⟨fresh, hfresh⟩ := (leads_step s world c).1.asked
    have hnext := h.step ho world
    rw [World.askedSince_eq hfresh] at hnext
    exact ih hnext (by rw [hfresh, hw, List.append_assoc])

end Timeline

/-- **The queries of a session are kept apart, and no wait is longer than it has to be.** Waits for
a pacer end exactly when the interval since the stamp before has passed, and stamp that instant. Of
a session, alone or beside others, any two queries are at least the interval of its relay apart. -/
theorem queries_paced :
    (∀ (p : Pacer) (now : Nat) (events : List Pacer.Event),
      let w := Pacer.Watch.run ⟨p, now, []⟩ events
      w.pacer.last = (p.stamps w.grants).head? ∧
        ∀ g earlier, g :: earlier <:+ w.grants → g.Needed p earlier) ∧
    (∀ (job : Job) (wall : UInt64) (now : Nat) (c : Control) (world : World),
      let ended := (start job wall now).run c world
      ∃ asked, ended.1.network.asked = asked ++ world.network.asked ∧
        Timeline c (start job wall now) asked ended.2) ∧
    ∀ (job : Job) (wall : UInt64) (now : Nat) (c : Control) (asked : List Asked) (s : Session),
      Timeline c (start job wall now) asked s →
        (∀ a ∈ asked, a.relay = job.relay.id) ∧
          asked.Pairwise fun later earlier =>
            earlier.at_ + job.settings.minInterval ≤ later.at_ := by
  refine ⟨?_, ?_, ?_⟩
  · intro p now events
    have h := (Pacer.Watch.exact_start p now).run events
    exact ⟨h.last, h.needed⟩
  · intro job wall now c world
    exact Timeline.start.run rfl
  · intro job wall now c asked s h
    have hp := h.paced (paced_start job wall now)
    have hj : s.job = job := h.job
    refine ⟨?_, ?_⟩
    · rw [← hj]
      exact hp.own
    · rw [← hj]
      exact hp.apart

/-- The first connection is refused and the first query is cut off. The query after it has paused
longer than the interval; those for the parts of the window have to wait for theirs. -/
theorem queries_paced_retried :
    let relay : Relay :=
      { id := "relay", overrides := { resultCap := some 1, minInterval := some 700 } }
    let script : Script :=
      { connects := [{ value := .failed (.connect "relay" "refused") }]
        queries := [{ delay := 2, value := .error (.reset "cut off") },
          { delay := 5, value := .ok { garbled := 1 } }] }
    let world : World :=
      { network := { peers := [("relay", .scripted script)] }, sink := { depot := .memory {} } }
    let job : Job := { relay, target := ⟨0, 3⟩, settings := Config.settings {} relay }
    let pacer : Pacer := { relay := "relay", minInterval := 10 }
    let watch := Pacer.Watch.run ⟨pacer, 0, []⟩ [.wait, .pass 3, .wait, .pass 15, .wait]
    watch.pacer.last = some 25 ∧ Pacer.Grant.Needed pacer [⟨0, 0⟩] ⟨3, 10⟩ ∧
      ∃ asked, ((start job 0 0).run {} world).1.network.asked = asked ++ world.network.asked ∧
        asked.map Asked.at_ = [2902, 2202, 1502, 500] ∧
        asked.Pairwise fun later earlier => earlier.at_ + job.settings.minInterval ≤ later.at_ := by
  intro relay script world job pacer watch
  obtain ⟨hwaits, halone, hpaced⟩ := queries_paced
  obtain ⟨hlast, hneeded⟩ := hwaits pacer 0 [.wait, .pass 3, .wait, .pass 15, .wait]
  have hends : ∃ ended,
      Nat.repeat (fun state => state.2.step {} state.1) 14 (world, start job 0 0) = ended ∧
        ended.2.isOver = true ∧
        ended.1.network.asked.map Asked.at_ = [2902, 2202, 1502, 500] := by
    refine ⟨_, rfl, ?_⟩
    clear hneeded hlast hwaits watch pacer hpaced halone
    revert relay script world job
    decide +kernel
  obtain ⟨ended, hend, hover, hat⟩ := hends
  obtain ⟨asked, hasked, htimeline⟩ := halone job 0 0 {} world
  refine ⟨hlast, hneeded ⟨3, 10⟩ [⟨0, 0⟩] ⟨[⟨25, 25⟩], rfl⟩, asked, hasked, ?_, ?_⟩
  · have hall : asked ++ world.network.asked = asked := List.append_nil asked
    rw [run_eq_repeat hend hover, hall] at hasked
    rw [← hasked]
    exact hat
  · exact (hpaced job 0 0 {} asked _ htimeline).2

end Session

end Harvest
